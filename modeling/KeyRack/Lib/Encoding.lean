import KeyRack.Lib.Text

/-!
# Text encodings of bytes and strings

Base64 with the standard alphabet and padding, and strings and numbers as a
compact JSON writer prints them.
-/
namespace Encoding

/-- The character of a six-bit digit. -/
def base64Digit (n : Nat) : Char :=
  if n < 26 then Char.ofNat (65 + n)
  else if n < 52 then Char.ofNat (71 + n)
  else if n < 62 then Char.ofNat (n - 4)
  else if n = 62 then '+'
  else '/'

def base64 : List UInt8 → List Char
  | [] => []
  | [a] =>
    let n := a.toNat * 65536
    [base64Digit (n / 262144), base64Digit (n / 4096 % 64), '=', '=']
  | [a, b] =>
    let n := a.toNat * 65536 + b.toNat * 256
    [base64Digit (n / 262144), base64Digit (n / 4096 % 64), base64Digit (n / 64 % 64), '=']
  | a :: b :: c :: rest =>
    let n := a.toNat * 65536 + b.toNat * 256 + c.toNat
    [base64Digit (n / 262144), base64Digit (n / 4096 % 64), base64Digit (n / 64 % 64),
      base64Digit (n % 64)] ++ base64 rest

example : base64 [77, 97, 110, 77, 97] = "TWFuTWE=".toList := by decide

/-- The six-bit digit of a character. -/
def base64Value (c : Char) : Option Nat :=
  (List.range 64).find? fun n => base64Digit n == c

/-- Read groups of four digits; the bits that the padding cuts off must be zero. -/
def unbase64 : List Char → Option (List UInt8)
  | [] => some []
  | [a, b, '=', '='] => do
    let n := (← base64Value a) * 64 + (← base64Value b)
    if n % 16 = 0 then return [UInt8.ofNat (n / 16)] else none
  | [a, b, c, '='] => do
    let n := ((← base64Value a) * 64 + (← base64Value b)) * 64 + (← base64Value c)
    if n % 4 = 0 then return [UInt8.ofNat (n / 1024), UInt8.ofNat (n / 4)] else none
  | a :: b :: c :: d :: rest => do
    let n := (((← base64Value a) * 64 + (← base64Value b)) * 64 + (← base64Value c)) * 64 +
      (← base64Value d)
    return UInt8.ofNat (n / 65536) :: UInt8.ofNat (n / 256) :: UInt8.ofNat n :: (← unbase64 rest)
  | _ => none

example : unbase64 "TWFuTWE=".toList = some [77, 97, 110, 77, 97] := by decide

def hexDigit (n : Nat) : Char := if n < 10 then Char.ofNat (48 + n) else Char.ofNat (87 + n)

def quote : Char := Char.ofNat 34

def backslash : Char := Char.ofNat 92

/-- A character inside a JSON string. -/
def jsonChar (c : Char) : List Char :=
  if c = quote then [backslash, quote]
  else if c = backslash then [backslash, backslash]
  else if c.toNat = 8 then [backslash, 'b']
  else if c.toNat = 9 then [backslash, 't']
  else if c.toNat = 10 then [backslash, 'n']
  else if c.toNat = 12 then [backslash, 'f']
  else if c.toNat = 13 then [backslash, 'r']
  else if c.toNat < 32 then
    [backslash, 'u', '0', '0', hexDigit (c.toNat / 16), hexDigit (c.toNat % 16)]
  else [c]

def jsonString (text : List Char) : List Char := quote :: text.flatMap jsonChar ++ [quote]

def jsonNumber (n : Nat) : List Char := (toString n).toList

def jsonBool (b : Bool) : List Char := if b then "true".toList else "false".toList

/-- An optional number; an absent one is `null`. -/
def jsonOption : Option Nat → List Char
  | some n => jsonNumber n
  | none => "null".toList

/-- A number and what follows its comma can be told apart. -/
theorem jsonNumber_comma
    (same : jsonNumber n ++ ',' :: rest = jsonNumber m ++ ',' :: rest') : n = m := by
  have plain (k : Nat) : ',' ∉ jsonNumber k := by
    rw [jsonNumber, Text.toList_toString]
    intro member
    exact absurd (Nat.isDigit_of_mem_toDigits (by decide) (by decide) member) (by decide)
  have split := congrArg (Text.splitOnce ',') same
  rw [Text.splitOnce_append (plain n), Text.splitOnce_append (plain m)] at split
  simp only [Option.some.injEq, Prod.mk.injEq] at split
  exact Text.toString_injective split.1

end Encoding
