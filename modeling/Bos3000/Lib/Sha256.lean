import Mathlib.Tactic.Common

-- SHA-256 and HMAC over it (crypto/sha256 and crypto/hmac), on lists of bytes.
namespace Sha256

def roundConstants : List UInt32 :=
  [0x428a2f98, 0x71374491, 0xb5c0fbcf, 0xe9b5dba5, 0x3956c25b, 0x59f111f1, 0x923f82a4, 0xab1c5ed5,
   0xd807aa98, 0x12835b01, 0x243185be, 0x550c7dc3, 0x72be5d74, 0x80deb1fe, 0x9bdc06a7, 0xc19bf174,
   0xe49b69c1, 0xefbe4786, 0x0fc19dc6, 0x240ca1cc, 0x2de92c6f, 0x4a7484aa, 0x5cb0a9dc, 0x76f988da,
   0x983e5152, 0xa831c66d, 0xb00327c8, 0xbf597fc7, 0xc6e00bf3, 0xd5a79147, 0x06ca6351, 0x14292967,
   0x27b70a85, 0x2e1b2138, 0x4d2c6dfc, 0x53380d13, 0x650a7354, 0x766a0abb, 0x81c2c92e, 0x92722c85,
   0xa2bfe8a1, 0xa81a664b, 0xc24b8b70, 0xc76c51a3, 0xd192e819, 0xd6990624, 0xf40e3585, 0x106aa070,
   0x19a4c116, 0x1e376c08, 0x2748774c, 0x34b0bcb5, 0x391c0cb3, 0x4ed8aa4a, 0x5b9cca4f, 0x682e6ff3,
   0x748f82ee, 0x78a5636f, 0x84c87814, 0x8cc70208, 0x90befffa, 0xa4506ceb, 0xbef9a3f7, 0xc67178f2]

structure Words where
  a : UInt32
  b : UInt32
  c : UInt32
  d : UInt32
  e : UInt32
  f : UInt32
  g : UInt32
  h : UInt32

def initial : Words :=
  ⟨0x6a09e667, 0xbb67ae85, 0x3c6ef372, 0xa54ff53a, 0x510e527f, 0x9b05688c, 0x1f83d9ab, 0x5be0cd19⟩

def rotateRight (x n : UInt32) : UInt32 := x >>> n ||| x <<< (32 - n)

def round (s : Words) (constant word : UInt32) : Words :=
  let sum1 := rotateRight s.e 6 ^^^ rotateRight s.e 11 ^^^ rotateRight s.e 25
  let choice := (s.e &&& s.f) ^^^ (~~~s.e &&& s.g)
  let sum0 := rotateRight s.a 2 ^^^ rotateRight s.a 13 ^^^ rotateRight s.a 22
  let majority := (s.a &&& s.b) ^^^ (s.a &&& s.c) ^^^ (s.b &&& s.c)
  let first := s.h + sum1 + choice + constant + word
  ⟨first + (sum0 + majority), s.a, s.b, s.c, s.d + first, s.e, s.f, s.g⟩

-- The word that follows sixteen words of the message schedule.
def nextWord (window : List UInt32) : UInt32 :=
  let w (i : Nat) := window.getD i 0
  let small0 := rotateRight (w 1) 7 ^^^ rotateRight (w 1) 18 ^^^ w 1 >>> 3
  let small1 := rotateRight (w 14) 17 ^^^ rotateRight (w 14) 19 ^^^ w 14 >>> 10
  w 0 + small0 + w 9 + small1

-- The rounds of a block, whose next sixteen schedule words are the window.
def rounds : List UInt32 → List UInt32 → Words → Words
  | [], _, s => s
  | constant :: constants, window, s =>
      rounds constants (window.tail ++ [nextWord window]) (round s constant (window.headD 0))

def compress (s : Words) (block : List UInt32) : Words :=
  let t := rounds roundConstants block s
  ⟨s.a + t.a, s.b + t.b, s.c + t.c, s.d + t.d, s.e + t.e, s.f + t.f, s.g + t.g, s.h + t.h⟩

def compressAll : Nat → Words → List UInt32 → Words
  | 0, s, _ => s
  | n + 1, s, words => compressAll n (compress s (words.take 16)) (words.drop 16)

def words : List UInt8 → List UInt32
  | a :: b :: c :: d :: rest =>
      (a.toUInt32 <<< 24 ||| b.toUInt32 <<< 16 ||| c.toUInt32 <<< 8 ||| d.toUInt32) :: words rest
  | _ => []

def wordBytes (w : UInt32) : List UInt8 :=
  [(w >>> 24).toUInt8, (w >>> 16).toUInt8, (w >>> 8).toUInt8, w.toUInt8]

-- A one bit, zeros up to 8 bytes before the end of a block, and the length in bits.
def padding (length : Nat) : List UInt8 :=
  let bits := UInt64.ofNat (8 * length)
  let zeros : List UInt8 := List.replicate ((119 - length % 64) % 64) 0
  0x80 :: (zeros ++ wordBytes (bits >>> 32).toUInt32 ++ wordBytes bits.toUInt32)

def sum256 (message : List UInt8) : List UInt8 :=
  let all := words (message ++ padding message.length)
  let s := compressAll (all.length / 16) initial all
  [s.a, s.b, s.c, s.d, s.e, s.f, s.g, s.h].flatMap wordBytes

def blockKey (key : List UInt8) : List UInt8 :=
  let key := if 64 < key.length then sum256 key else key
  key ++ List.replicate (64 - key.length) 0

def hmac (key message : List UInt8) : List UInt8 :=
  let key := blockKey key
  sum256 (key.map (· ^^^ 0x5C) ++ sum256 (key.map (· ^^^ 0x36) ++ message))

-- The digest of abc.
example : (sum256 [0x61, 0x62, 0x63]).take 4 = [0xba, 0x78, 0x16, 0xbf] := by decide +kernel

end Sha256
