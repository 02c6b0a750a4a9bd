import Indicators.Json.Basic

set_option autoImplicit false

/-! No blanks, members in the order of the value, and only the escapes that are needed. -/

namespace Indicators.Json

open Indicators.Number

/-- Floats stand without an exponent from 0.00001 to below 10^16 and always show a fraction or an
exponent; halfway between two texts the even digit is taken. -/
def floats : Style := ⟨-5, 15, true, .toEven⟩

def writeInt (i : Int) : List Char :=
  if i < 0 then '-' :: Nat.toDigits 10 i.natAbs else Nat.toDigits 10 i.natAbs

def Number.write : Number → List Char
  | .int i _ => writeInt i
  | .float x => (floats.write x).toList

def hexDigit (n : Nat) : Char := Nat.digitChar (n % 16)

def escape (c : Char) : List Char :=
  if c = '"' then ['\\', '"']
  else if c = '\\' then ['\\', '\\']
  else if c = '\n' then ['\\', 'n']
  else if c = '\r' then ['\\', 'r']
  else if c = '\t' then ['\\', 't']
  else if c.toNat = 8 then ['\\', 'b']
  else if c.toNat = 12 then ['\\', 'f']
  else if c.toNat < 32 then ['\\', 'u', '0', '0', hexDigit (c.toNat / 16), hexDigit c.toNat]
  else [c]

def writeString (s : String) : List Char := '"' :: (s.toList.flatMap escape ++ ['"'])

mutual

def write : Json → List Char
  | .null => ['n', 'u', 'l', 'l']
  | .bool true => ['t', 'r', 'u', 'e']
  | .bool false => ['f', 'a', 'l', 's', 'e']
  | .number n => n.write
  | .string s => writeString s
  | .array [] => ['[', ']']
  | .array (item :: rest) => '[' :: (write item ++ writeItems rest)
  | .object [] => ['{', '}']
  | .object ((name, value) :: rest) =>
    '{' :: (writeString name ++ ':' :: (write value ++ writeMembers rest))

def writeItems : List Json → List Char
  | [] => [']']
  | item :: rest => ',' :: (write item ++ writeItems rest)

def writeMembers : List (String × Json) → List Char
  | [] => ['}']
  | (name, value) :: rest =>
    ',' :: (writeString name ++ ':' :: (write value ++ writeMembers rest))

end

def text (value : Json) : String := String.ofList (write value)

end Indicators.Json
