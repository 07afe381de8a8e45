/-!
# Base64

The standard alphabet with padding. Reading is strict: the length is a multiple of four, there
is no other character, and the bits that padding leaves over are zero, so that every sequence
of bytes has exactly one written form.
-/

namespace DocQuery.Base64

def alphabet : List Char :=
  "ABCDEFGHIJKLMNOPQRSTUVWXYZabcdefghijklmnopqrstuvwxyz0123456789+/".toList

/-- The character for a value below 64. -/
def sextet (value : Nat) : Char :=
  alphabet.getD value '='

def value? (c : Char) : Option Nat :=
  alphabet.idxOf? c

def quartet (first second third : UInt8) : List Char :=
  let bits := (first.toNat * 256 + second.toNat) * 256 + third.toNat
  [sextet (bits / 262144), sextet (bits / 4096 % 64), sextet (bits / 64 % 64),
    sextet (bits % 64)]

def encode : List UInt8 → List Char
  | [] => []
  | [first] =>
      let bits := first.toNat * 16
      [sextet (bits / 64), sextet (bits % 64), '=', '=']
  | [first, second] =>
      let bits := (first.toNat * 256 + second.toNat) * 4
      [sextet (bits / 4096), sextet (bits / 64 % 64), sextet (bits % 64), '=']
  | first :: second :: third :: rest => quartet first second third ++ encode rest

/-- The bytes of a last group of four characters that ends in padding; `c` may be padding
too. -/
def lastGroup? (a b c : Char) : Option (List UInt8) :=
  if c = '=' then do
    let bits := (← value? a) * 64 + (← value? b)
    if bits % 16 = 0 then some [UInt8.ofNat (bits / 16)] else none
  else do
    let bits := ((← value? a) * 64 + (← value? b)) * 64 + (← value? c)
    if bits % 4 = 0 then some [UInt8.ofNat (bits / 1024), UInt8.ofNat (bits / 4)] else none

def decode? : List Char → Option (List UInt8)
  | [] => some []
  | a :: b :: c :: d :: rest =>
      if d = '=' ∧ rest = [] then
        lastGroup? a b c
      else do
        let bits :=
          (((← value? a) * 64 + (← value? b)) * 64 + (← value? c)) * 64 + (← value? d)
        let bytes ← decode? rest
        return UInt8.ofNat (bits / 65536) :: UInt8.ofNat (bits / 256) :: UInt8.ofNat bits
          :: bytes
  | _ => none

/-- The written form of a sequence of bytes, as a string. -/
def text (bytes : List UInt8) : String :=
  String.ofList (encode bytes)

/-- The bytes that a string is the written form of. -/
def ofText? (text : String) : Option (List UInt8) :=
  decode? text.toList

end DocQuery.Base64
