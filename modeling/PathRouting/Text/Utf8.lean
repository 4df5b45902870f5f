/-!
# UTF-8

Characters as sequences of bytes. Reading never fails: where bytes form no character, the
longest start of a character, or else a single byte, becomes the replacement character.
-/
namespace PathRouting.Text

def replacement : Char := Char.ofNat 0xFFFD

def utf8Bytes (c : Char) : List Nat :=
  let n := c.toNat
  if n < 0x80 then [n]
  else if n < 0x800 then [0xC0 + n / 64, 0x80 + n % 64]
  else if n < 0x10000 then [0xE0 + n / 4096, 0x80 + n / 64 % 64, 0x80 + n % 64]
  else [0xF0 + n / 262144, 0x80 + n / 4096 % 64, 0x80 + n / 64 % 64, 0x80 + n % 64]

inductive ByteOrChar where
  | byte (b : Nat)
  | whole (c : Char)
deriving DecidableEq

/-- A character of which some bytes were read: the bits so far, the number of bytes that are
missing, and the bounds for the next one. Nothing is pending if no byte is missing. -/
structure Pending where
  bits : Nat
  missing : Nat
  least : Nat
  most : Nat

def Pending.idle : Pending := ⟨0, 0, 0, 0⟩

/-- A first byte: the characters that it completes, and what is pending after it. The bounds
on the second byte keep out codes that have a shorter form or that belong to no character. -/
def firstByte (b : Nat) : List Char × Pending :=
  if b < 0x80 then ([Char.ofNat b], .idle)
  else if b < 0xC2 then ([replacement], .idle)
  else if b < 0xE0 then ([], ⟨b - 0xC0, 1, 0x80, 0xBF⟩)
  else if b < 0xF0 then
    ([], ⟨b - 0xE0, 2, if b = 0xE0 then 0xA0 else 0x80, if b = 0xED then 0x9F else 0xBF⟩)
  else if b < 0xF5 then
    ([], ⟨b - 0xF0, 3, if b = 0xF0 then 0x90 else 0x80, if b = 0xF4 then 0x8F else 0xBF⟩)
  else ([replacement], .idle)

/-- What becomes of a character that is cut short. -/
def Pending.cut (p : Pending) : List Char := if p.missing = 0 then [] else [replacement]

def Pending.accepts (p : Pending) (b : Nat) : Bool :=
  p.missing != 0 && (p.least ≤ b && b ≤ p.most)

def Pending.continue (p : Pending) (b : Nat) : List Char × Pending :=
  let bits := p.bits * 64 + (b - 0x80)
  if p.missing = 1 then ([Char.ofNat bits], .idle) else ([], ⟨bits, p.missing - 1, 0x80, 0xBF⟩)

def Pending.next (p : Pending) (b : Nat) : List Char × Pending :=
  if p.accepts b then p.continue b
  else
    let (cs, q) := firstByte b
    (p.cut ++ cs, q)

def readUnits : Pending → List ByteOrChar → List Char
  | p, [] => p.cut
  | p, .byte b :: rest =>
    let (cs, q) := p.next b
    cs ++ readUnits q rest
  | p, .whole c :: rest => p.cut ++ c :: readUnits .idle rest

end PathRouting.Text
