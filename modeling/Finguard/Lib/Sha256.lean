import Finguard.Lib.NumberText

/-! The SHA-256 digest of a list of bytes. -/

namespace Sha256
open Text

/-- Words are numbers below `2 ^ 32`. -/
def rotate (n x : ℕ) : ℕ := x >>> n ||| (x <<< (32 - n)) % 2 ^ 32

def complement (x : ℕ) : ℕ := 2 ^ 32 - 1 - x

def add (x y : ℕ) : ℕ := (x + y) % 2 ^ 32

def roundConstants : List ℕ := [
  0x428a2f98, 0x71374491, 0xb5c0fbcf, 0xe9b5dba5, 0x3956c25b, 0x59f111f1, 0x923f82a4, 0xab1c5ed5,
  0xd807aa98, 0x12835b01, 0x243185be, 0x550c7dc3, 0x72be5d74, 0x80deb1fe, 0x9bdc06a7, 0xc19bf174,
  0xe49b69c1, 0xefbe4786, 0x0fc19dc6, 0x240ca1cc, 0x2de92c6f, 0x4a7484aa, 0x5cb0a9dc, 0x76f988da,
  0x983e5152, 0xa831c66d, 0xb00327c8, 0xbf597fc7, 0xc6e00bf3, 0xd5a79147, 0x06ca6351, 0x14292967,
  0x27b70a85, 0x2e1b2138, 0x4d2c6dfc, 0x53380d13, 0x650a7354, 0x766a0abb, 0x81c2c92e, 0x92722c85,
  0xa2bfe8a1, 0xa81a664b, 0xc24b8b70, 0xc76c51a3, 0xd192e819, 0xd6990624, 0xf40e3585, 0x106aa070,
  0x19a4c116, 0x1e376c08, 0x2748774c, 0x34b0bcb5, 0x391c0cb3, 0x4ed8aa4a, 0x5b9cca4f, 0x682e6ff3,
  0x748f82ee, 0x78a5636f, 0x84c87814, 0x8cc70208, 0x90befffa, 0xa4506ceb, 0xbef9a3f7, 0xc67178f2]

structure State where
  (a b c d e f g h : ℕ)

def initial : State := ⟨0x6a09e667, 0xbb67ae85, 0x3c6ef372, 0xa54ff53a, 0x510e527f, 0x9b05688c,
  0x1f83d9ab, 0x5be0cd19⟩

def step (s : State) (kw : ℕ × ℕ) : State :=
  let sum1 := rotate 6 s.e ^^^ rotate 11 s.e ^^^ rotate 25 s.e
  let choice := (s.e &&& s.f) ^^^ (complement s.e &&& s.g)
  let temp1 := add (add (add s.h sum1) choice) (add kw.1 kw.2)
  let sum0 := rotate 2 s.a ^^^ rotate 13 s.a ^^^ rotate 22 s.a
  let majority := (s.a &&& s.b) ^^^ (s.a &&& s.c) ^^^ (s.b &&& s.c)
  ⟨add temp1 (add sum0 majority), s.a, s.b, s.c, add s.d temp1, s.e, s.f, s.g⟩

def expand (w : List ℕ) : ℕ :=
  let x := w.getD 1 0
  let y := w.getD 14 0
  add (add (w.getD 0 0) (rotate 7 x ^^^ rotate 18 x ^^^ x >>> 3))
    (add (w.getD 9 0) (rotate 17 y ^^^ rotate 19 y ^^^ y >>> 10))

/-- The words of a block and those that are made of the sixteen before them. -/
def schedule : ℕ → List ℕ → List ℕ
  | 0, _ => []
  | n + 1, w => w.getD 0 0 :: schedule n (w.drop 1 ++ [expand w])

def compress (s : State) (block : List ℕ) : State :=
  let t := (roundConstants.zip (schedule 64 block)).foldl step s
  ⟨add s.a t.a, add s.b t.b, add s.c t.c, add s.d t.d, add s.e t.e, add s.f t.f, add s.g t.g,
    add s.h t.h⟩

def bytesBE : ℕ → ℕ → List ℕ
  | 0, _ => []
  | width + 1, n => n / 256 ^ width % 256 :: bytesBE width n

/-- Zeros up to a whole number of blocks, the last of which ends with the length in bits. -/
def pad (message : List ℕ) : List ℕ :=
  message ++ 0x80 :: (List.replicate ((119 - message.length % 64) % 64) 0 ++
    bytesBE 8 (8 * message.length))

def words : List ℕ → List ℕ
  | a :: b :: c :: d :: rest => (((a * 256 + b) * 256 + c) * 256 + d) :: words rest
  | _ => []

def blocks : ℕ → State → List ℕ → State
  | 0, s, _ => s
  | n + 1, s, ws => blocks n (compress s (ws.take 16)) (ws.drop 16)

def hexdigest (message : List UInt8) : List Char :=
  let ws := words (pad (message.map UInt8.toNat))
  let s := blocks (ws.length / 16) initial ws
  [s.a, s.b, s.c, s.d, s.e, s.f, s.g, s.h].flatMap (hexChars 8)

example : hexdigest [97, 98, 99] =
    "ba7816bf8f01cfea414140de5dae2223b00361a396177a9cb410ff61f20015ad".toList := by
  decide +kernel

end Sha256
