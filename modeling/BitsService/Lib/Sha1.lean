import Mathlib.Algebra.Group.Nat.Defs
import Mathlib.Data.Nat.Notation

/-! # SHA-1

The digest of a sequence of bytes, word by word: the message is padded to blocks of sixteen words,
and each block is mixed into five words of state by eighty rounds. -/
namespace GoLib.Sha1
set_option autoImplicit false

abbrev Word := UInt32

structure State where
  a : Word
  b : Word
  c : Word
  d : Word
  e : Word
  deriving DecidableEq

def State.initial : State := ⟨0x67452301, 0xefcdab89, 0x98badcfe, 0x10325476, 0xc3d2e1f0⟩

def rotateLeft (n x : Word) : Word := x <<< n ||| x >>> (32 - n)

/-! ## One block -/

/-- The function and the constant of round `t`. -/
def mix (t : ℕ) (s : State) : Word :=
  if t < 20 then (s.b &&& s.c ||| ~~~s.b &&& s.d) + 0x5a827999
  else if t < 40 then (s.b ^^^ s.c ^^^ s.d) + 0x6ed9eba1
  else if t < 60 then (s.b &&& s.c ||| s.b &&& s.d ||| s.c &&& s.d) + 0x8f1bbcdc
  else (s.b ^^^ s.c ^^^ s.d) + 0xca62c1d6

def round (t : ℕ) (w : Word) (s : State) : State :=
  ⟨rotateLeft 5 s.a + mix t s + s.e + w, s.a, rotateLeft 30 s.b, s.c, s.d⟩

/-- `n` rounds from round `t` on. `window` has the next sixteen words of the schedule. -/
def rounds : ℕ → ℕ → List Word → State → State
  | 0, _, _, s => s
  | n + 1, t, window, s =>
    let w := window.getD 0 0
    let next := rotateLeft 1 (window.getD 13 0 ^^^ window.getD 8 0 ^^^ window.getD 2 0 ^^^ w)
    rounds n (t + 1) (window.tail ++ [next]) (round t w s)

def compress (s : State) (block : List Word) : State :=
  let r := rounds 80 0 block s
  ⟨s.a + r.a, s.b + r.b, s.c + r.c, s.d + r.d, s.e + r.e⟩

/-! ## A message -/

/-- The last `n` bytes of a number, most significant first. -/
def bytesOf (n x : ℕ) : List UInt8 := (List.range n).reverse.map fun i => UInt8.ofNat (x / 256 ^ i)

def pad (message : List UInt8) : List UInt8 :=
  message ++ 0x80 :: List.replicate ((119 - message.length % 64) % 64) 0 ++
    bytesOf 8 (8 * message.length)

def words : List UInt8 → List Word
  | a :: b :: c :: d :: rest =>
    (a.toUInt32 <<< 24 ||| b.toUInt32 <<< 16 ||| c.toUInt32 <<< 8 ||| d.toUInt32) :: words rest
  | _ => []

/-- `n` blocks. -/
def blocks : ℕ → List Word → State → State
  | 0, _, s => s
  | n + 1, message, s => blocks n (message.drop 16) (compress s (message.take 16))

def sum (message : List UInt8) : List UInt8 :=
  let padded := words (pad message)
  let s := blocks (padded.length / 16) padded .initial
  bytesOf 4 s.a.toNat ++ bytesOf 4 s.b.toNat ++ bytesOf 4 s.c.toNat ++ bytesOf 4 s.d.toNat ++
    bytesOf 4 s.e.toNat

theorem bytesOf_length (n x : ℕ) : (bytesOf n x).length = n := by
  simp [bytesOf]

theorem sum_length (message : List UInt8) : (sum message).length = 20 := by
  simp [sum, bytesOf_length]

end GoLib.Sha1
