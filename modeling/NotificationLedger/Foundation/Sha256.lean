import Mathlib.Tactic.Common

/-!
# SHA-256

The hash of FIPS 180-4, written so that the kernel can run it: words are natural numbers below
`2 ^ 32`, and `force` makes a number a literal before it is used more than once. The rotations of a
word `x` are read off `x` written twice, `x * 2 ^ 32 + x`, where a right shift is a rotation.
-/

namespace Sha256

/-- Evaluates `n` before it continues. -/
def force {α : Type} (n : ℕ) (k : ℕ → α) : α :=
  match n with
  | 0 => k 0
  | m + 1 => k (m + 1)

/-! ## Words -/

/-- Addition modulo `2 ^ 32`. -/
def add (x y : ℕ) : ℕ := Nat.mod (Nat.add x y) 4294967296

/-- The sum of three shifts of the word written twice. -/
def shifts (x m n k : ℕ) : ℕ :=
  force (Nat.mul x 4294967297) fun y ↦
    Nat.mod (Nat.xor (Nat.shiftRight y m) (Nat.xor (Nat.shiftRight y n) (Nat.shiftRight y k)))
      4294967296

/-- As `shifts`, where the last shift does not rotate. -/
def shiftsLast (x m n k : ℕ) : ℕ :=
  force (Nat.mul x 4294967297) fun y ↦
    Nat.mod (Nat.xor (Nat.shiftRight y m) (Nat.xor (Nat.shiftRight y n) (Nat.shiftRight x k)))
      4294967296

def choose (e f g : ℕ) : ℕ := Nat.xor (Nat.land e f) (Nat.land (Nat.xor e 4294967295) g)

def majority (a b c : ℕ) : ℕ := Nat.xor (Nat.land a b) (Nat.xor (Nat.land a c) (Nat.land b c))

/-- The round constants. -/
def constants : List ℕ :=
  [0x428a2f98, 0x71374491, 0xb5c0fbcf, 0xe9b5dba5, 0x3956c25b, 0x59f111f1, 0x923f82a4, 0xab1c5ed5,
    0xd807aa98, 0x12835b01, 0x243185be, 0x550c7dc3, 0x72be5d74, 0x80deb1fe, 0x9bdc06a7, 0xc19bf174,
    0xe49b69c1, 0xefbe4786, 0x0fc19dc6, 0x240ca1cc, 0x2de92c6f, 0x4a7484aa, 0x5cb0a9dc, 0x76f988da,
    0x983e5152, 0xa831c66d, 0xb00327c8, 0xbf597fc7, 0xc6e00bf3, 0xd5a79147, 0x06ca6351, 0x14292967,
    0x27b70a85, 0x2e1b2138, 0x4d2c6dfc, 0x53380d13, 0x650a7354, 0x766a0abb, 0x81c2c92e, 0x92722c85,
    0xa2bfe8a1, 0xa81a664b, 0xc24b8b70, 0xc76c51a3, 0xd192e819, 0xd6990624, 0xf40e3585, 0x106aa070,
    0x19a4c116, 0x1e376c08, 0x2748774c, 0x34b0bcb5, 0x391c0cb3, 0x4ed8aa4a, 0x5b9cca4f, 0x682e6ff3,
    0x748f82ee, 0x78a5636f, 0x84c87814, 0x8cc70208, 0x90befffa, 0xa4506ceb, 0xbef9a3f7, 0xc67178f2]

/-! ## Compression -/

/-- The eight working variables. -/
structure State where
  a : ℕ
  b : ℕ
  c : ℕ
  d : ℕ
  e : ℕ
  f : ℕ
  g : ℕ
  h : ℕ

def State.initial : State :=
  ⟨0x6a09e667, 0xbb67ae85, 0x3c6ef372, 0xa54ff53a, 0x510e527f, 0x9b05688c, 0x1f83d9ab, 0x5be0cd19⟩

def round (constant word : ℕ) : State → State
  | ⟨a, b, c, d, e, f, g, h⟩ =>
    force (Nat.add (Nat.add (Nat.add (Nat.add h (shifts e 6 11 25)) (choose e f g)) constant) word)
      fun t ↦
    force (add d t) fun e' ↦
    force (add t (Nat.add (shifts a 2 13 22) (majority a b c))) fun a' ↦
    ⟨a', a, b, c, e', e, f, g⟩

def rounds : List ℕ → List ℕ → State → State
  | constant :: constants, word :: words, s => rounds constants words (round constant word s)
  | _, _, s => s

/-- Extends a window of sixteen words by `n` further ones. -/
def schedule : ℕ → List ℕ → List ℕ
  | 0, window => window
  | n + 1, window =>
    match window with
    | [w₀, w₁, w₂, w₃, w₄, w₅, w₆, w₇, w₈, w₉, w₁₀, w₁₁, w₁₂, w₁₃, w₁₄, w₁₅] =>
      force (add (Nat.add w₀ (shiftsLast w₁ 7 18 3)) (Nat.add w₉ (shiftsLast w₁₄ 17 19 10)))
        fun w₁₆ ↦
      w₀ :: schedule n
        [w₁, w₂, w₃, w₄, w₅, w₆, w₇, w₈, w₉, w₁₀, w₁₁, w₁₂, w₁₃, w₁₄, w₁₅, w₁₆]
    | _ => window

def compress (s : State) (block : List ℕ) : State :=
  match rounds constants (schedule 48 block) s with
  | ⟨a, b, c, d, e, f, g, h⟩ =>
    force (add s.a a) fun a ↦ force (add s.b b) fun b ↦
    force (add s.c c) fun c ↦ force (add s.d d) fun d ↦
    force (add s.e e) fun e ↦ force (add s.f f) fun f ↦
    force (add s.g g) fun g ↦ force (add s.h h) fun h ↦
    ⟨a, b, c, d, e, f, g, h⟩

/-! ## Messages -/

/-- The message with a one bit, zeros, and its length in bits. -/
def pad (message : List ℕ) : List ℕ :=
  let bits := message.length * 8
  message ++ 0x80 :: List.replicate ((119 - message.length % 64) % 64) 0 ++
    [56, 48, 40, 32, 24, 16, 8, 0].map fun shift ↦ bits >>> shift % 256

/-- Big-endian words. -/
def words : List ℕ → List ℕ
  | a :: b :: c :: d :: rest =>
    force (((a * 256 + b) * 256 + c) * 256 + d) fun word ↦ word :: words rest
  | _ => []

def blocks : ℕ → State → List ℕ → State
  | 0, s, _ => s
  | n + 1, s, rest => blocks n (compress s (rest.take 16)) (rest.drop 16)

/-- The big-endian bytes of a word. -/
def bytes (word : ℕ) : List UInt8 :=
  [24, 16, 8, 0].map fun shift ↦ UInt8.ofNat (word >>> shift % 256)

def digest (message : List UInt8) : List UInt8 :=
  let message := words (pad (message.map UInt8.toNat))
  match blocks (message.length / 16) State.initial message with
  | ⟨a, b, c, d, e, f, g, h⟩ => [a, b, c, d, e, f, g, h].flatMap bytes

theorem length_digest (message : List UInt8) : (digest message).length = 32 := rfl

/-- The digest of `abc`. -/
example : digest [97, 98, 99] =
    [0xba7816bf, 0x8f01cfea, 0x414140de, 0x5dae2223, 0xb00361a3, 0x96177a9c, 0xb410ff61,
      0xf20015ad].flatMap bytes := by
  decide +kernel

end Sha256
