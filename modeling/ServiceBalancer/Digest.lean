import ServiceBalancer.Text.Quoted

/-! The SHA-256 digest of a text, and its short form. -/
namespace ServiceBalancer.Digest

structure State where
  a : UInt32
  b : UInt32
  c : UInt32
  d : UInt32
  e : UInt32
  f : UInt32
  g : UInt32
  h : UInt32

def initial : State :=
  ⟨0x6a09e667, 0xbb67ae85, 0x3c6ef372, 0xa54ff53a,
    0x510e527f, 0x9b05688c, 0x1f83d9ab, 0x5be0cd19⟩

def roundConstants : List UInt32 := [
  0x428a2f98, 0x71374491, 0xb5c0fbcf, 0xe9b5dba5, 0x3956c25b, 0x59f111f1, 0x923f82a4, 0xab1c5ed5,
  0xd807aa98, 0x12835b01, 0x243185be, 0x550c7dc3, 0x72be5d74, 0x80deb1fe, 0x9bdc06a7, 0xc19bf174,
  0xe49b69c1, 0xefbe4786, 0x0fc19dc6, 0x240ca1cc, 0x2de92c6f, 0x4a7484aa, 0x5cb0a9dc, 0x76f988da,
  0x983e5152, 0xa831c66d, 0xb00327c8, 0xbf597fc7, 0xc6e00bf3, 0xd5a79147, 0x06ca6351, 0x14292967,
  0x27b70a85, 0x2e1b2138, 0x4d2c6dfc, 0x53380d13, 0x650a7354, 0x766a0abb, 0x81c2c92e, 0x92722c85,
  0xa2bfe8a1, 0xa81a664b, 0xc24b8b70, 0xc76c51a3, 0xd192e819, 0xd6990624, 0xf40e3585, 0x106aa070,
  0x19a4c116, 0x1e376c08, 0x2748774c, 0x34b0bcb5, 0x391c0cb3, 0x4ed8aa4a, 0x5b9cca4f, 0x682e6ff3,
  0x748f82ee, 0x78a5636f, 0x84c87814, 0x8cc70208, 0x90befffa, 0xa4506ceb, 0xbef9a3f7, 0xc67178f2]

def rotateRight (x : UInt32) (n : UInt32) : UInt32 := (x >>> n) ||| (x <<< (32 - n))

def extendSchedule : Nat → List UInt32 → List UInt32
  | 0, words => words
  | n + 1, words =>
    let at' (i : Nat) : UInt32 := words.getD i 0
    let s0 := rotateRight (at' 14) 7 ^^^ rotateRight (at' 14) 18 ^^^ (at' 14 >>> 3)
    let s1 := rotateRight (at' 1) 17 ^^^ rotateRight (at' 1) 19 ^^^ (at' 1 >>> 10)
    extendSchedule n ((at' 15 + s0 + at' 6 + s1) :: words)

def round (s : State) (input : UInt32 × UInt32) : State :=
  let s1 := rotateRight s.e 6 ^^^ rotateRight s.e 11 ^^^ rotateRight s.e 25
  let choice := (s.e &&& s.f) ^^^ (~~~s.e &&& s.g)
  let t1 := s.h + s1 + choice + input.1 + input.2
  let s0 := rotateRight s.a 2 ^^^ rotateRight s.a 13 ^^^ rotateRight s.a 22
  let majority := (s.a &&& s.b) ^^^ (s.a &&& s.c) ^^^ (s.b &&& s.c)
  ⟨t1 + (s0 + majority), s.a, s.b, s.c, s.d + t1, s.e, s.f, s.g⟩

def compress (s : State) (block : List UInt32) : State :=
  let r := (roundConstants.zip (extendSchedule 48 block.reverse).reverse).foldl round s
  ⟨s.a + r.a, s.b + r.b, s.c + r.c, s.d + r.d, s.e + r.e, s.f + r.f, s.g + r.g, s.h + r.h⟩

def wordsOf : List UInt8 → List UInt32
  | a :: b :: c :: d :: rest =>
    ((a.toUInt32 <<< 24) ||| (b.toUInt32 <<< 16) ||| (c.toUInt32 <<< 8) ||| d.toUInt32) :: wordsOf rest
  | _ => []

/-- The message with the bit 1, zeros up to eight bytes below a multiple of 64, and its length in bits. -/
def pad (message : List UInt8) : List UInt8 :=
  let size := message.length
  let zeros := (119 - size % 64) % 64
  message ++ (0x80 : UInt8) :: (List.replicate zeros (0 : UInt8) ++
    [56, 48, 40, 32, 24, 16, 8, 0].map (fun shift => UInt8.ofNat ((size * 8) >>> shift)))

def compressAll : Nat → State → List UInt32 → State
  | 0, s, _ => s
  | blocks + 1, s, words => compressAll blocks (compress s (words.take 16)) (words.drop 16)

def sha256 (message : List UInt8) : List UInt32 :=
  let words := wordsOf (pad message)
  let s := compressAll (words.length / 16) initial words
  [s.a, s.b, s.c, s.d, s.e, s.f, s.g, s.h]

def hexWord (w : UInt32) : List Char :=
  let digits := Text.hexDigits w.toNat
  List.replicate (8 - digits.length) '0' ++ digits

/-- The digest of a text in UTF-8, cut to forty digits to base sixteen: a label value holds
at most 63 characters. -/
def short (s : String) : String :=
  .ofList (((sha256 s.toUTF8.toList).flatMap hexWord).take 40)

end ServiceBalancer.Digest
