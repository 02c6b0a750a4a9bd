import Indicators.Source.Decode
import Indicators.Text.Digit

set_option autoImplicit false

/-! Numbers without fraction and exponent are exact while 64 bits hold them; `-0` and everything
else are floats. A float keeps the first digits of its literal that fit 64 bits and scales them by
one power of ten, so a literal with many digits may give a neighbour of the nearest float. -/

namespace Indicators.Json

open Indicators.Number Indicators.Source

def isSpace (c : Char) : Bool := c == ' ' || c == '\n' || c == '\t' || c == '\r'

def skip (text : List Char) : List Char := text.dropWhile isSpace

def hexUnit (a b c d : Char) : Option Nat := Text.digitsValue? 16 [a, b, c, d]

/-- The characters of a string, unless an escape stood for none, and what follows the string. -/
abbrev StringBody := Option (Option (List Char) × List Char)

def StringBody.cons (c : Char) (body : StringBody) : StringBody :=
  body.map fun b => (b.1.map (c :: ·), b.2)

def StringBody.spoil (body : StringBody) : StringBody := body.map fun b => (none, b.2)

def shortEscape : Char → Option Char
  | '"' => some '"'
  | '\\' => some '\\'
  | '/' => some '/'
  | 'b' => some (Char.ofNat 8)
  | 'f' => some (Char.ofNat 12)
  | 'n' => some '\n'
  | 'r' => some '\r'
  | 't' => some '\t'
  | _ => none

def isHighHalf (n : Nat) : Bool := 0xD800 ≤ n && n < 0xDC00

def isLowHalf (n : Nat) : Bool := 0xDC00 ≤ n && n < 0xE000

def joinHalves (high low : Nat) : Char :=
  Char.ofNat (0x10000 + (high - 0xD800) * 0x400 + (low - 0xDC00))

def lowHalf? : List Char → Option Nat
  | '\\' :: 'u' :: a :: b :: c :: d :: _ => (hexUnit a b c d).filter isLowHalf
  | _ => none

/-- A string after its opening quote. `pending` counts the characters of an escape that has
already been joined to the one before it. -/
def readString : (pending : Nat) → List Char → StringBody
  | _, [] => none
  | pending + 1, _ :: rest => readString pending rest
  | 0, '"' :: rest => some (some [], rest)
  | 0, '\\' :: 'u' :: a :: b :: c :: d :: rest =>
    match hexUnit a b c d with
    | none => none
    | some n =>
      if isLowHalf n then (readString 0 rest).spoil
      else if isHighHalf n then
        match lowHalf? rest with
        | some low => (readString 6 rest).cons (joinHalves n low)
        | none => (readString 0 rest).spoil
      else (readString 0 rest).cons (Char.ofNat n)
  | 0, '\\' :: c :: rest =>
    match shortEscape c with
    | some e => (readString 0 rest).cons e
    | none => none
  | 0, c :: rest => if c.toNat < 32 ∨ c = '\\' then none else (readString 0 rest).cons c

structure Literal where
  negative : Bool
  whole : List Char
  fraction : Option (List Char)
  exponent : Option (Bool × List Char)

def digitValue (c : Char) : Nat := c.toNat - '0'.toNat

def appendDigit (significand : Nat) (c : Char) : Option Nat :=
  let next := significand * 10 + digitValue c
  if next < UInt64.size then some next else none

def takeDigits (significand : Nat) : List Char → Nat × Nat
  | [] => (significand, 0)
  | c :: rest =>
    match appendDigit significand c with
    | some next => takeDigits next rest
    | none => (significand, rest.length + 1)

def powerOfTen (n : Nat) : Binary64 := Binary64.ofDecimal false 1 n

/-- A significand times a power of ten, by one multiplication or division with the rounded power;
very small powers take two steps. Overflow gives nothing. -/
def scaled (significand : Nat) (exponent : Int) : Option Binary64 :=
  let start := Binary64.ofInt significand
  if 308 < exponent then if significand = 0 then some start else none
  else if 0 ≤ exponent then
    let x := start * powerOfTen exponent.toNat
    if x.isFinite then some x else none
  else if -308 ≤ exponent then some (start / powerOfTen (-exponent).toNat)
  else if -616 ≤ exponent then
    some (start / powerOfTen 308 / powerOfTen (-exponent - 308).toNat)
  else some (Binary64.zero false)

def exponentBound : Nat := 0x80000000

namespace Literal

def power (l : Literal) : Option Int :=
  match l.exponent with
  | none => some 0
  | some (down, digits) =>
    let size := Nat.ofDigitChars 10 digits 0
    if size < exponentBound then some (if down then -size else size) else none

def magnitude (l : Literal) : Option Binary64 :=
  let (whole, dropped) := takeDigits 0 l.whole
  let fraction := l.fraction.getD []
  let (significand, unread) := takeDigits whole fraction
  match l.power with
  | some power => scaled significand (power + dropped - (fraction.length - unread : Nat))
  | none =>
    if significand ≠ 0 ∧ l.exponent.any (!·.1) then none else some (Binary64.zero false)

def float (l : Literal) : Option Number :=
  match l.magnitude with
  | some (.finite x) => some (.float (if l.negative then { x with negative := !x.negative } else x))
  | _ => none

def number (l : Literal) : Option Number :=
  match l.fraction, l.exponent with
  | none, none =>
    let n := Nat.ofDigitChars 10 l.whole 0
    let i : Int := if l.negative then -n else n
    if h : Word i then if l.negative && n == 0 then l.float else some (.int i h) else l.float
  | _, _ => l.float

end Literal

def readDigits (text : List Char) : Option (List Char × List Char) :=
  let digits := text.takeWhile Char.isDigit
  if digits.isEmpty then none else some (digits, text.dropWhile Char.isDigit)

def readLiteral (text : List Char) : Option (Literal × List Char) := do
  let (negative, text) := match text with
    | '-' :: rest => (true, rest)
    | rest => (false, rest)
  let (whole, text) ← readDigits text
  if whole.head? = some '0' ∧ whole.length ≠ 1 then none
  let (fraction, text) ← match text with
    | '.' :: rest => (readDigits rest).map fun r => (some r.1, r.2)
    | rest => some (none, rest)
  let (exponent, text) ← match text with
    | c :: rest =>
      if c = 'e' ∨ c = 'E' then
        match rest with
        | '-' :: rest => (readDigits rest).map fun r => (some (true, r.1), r.2)
        | '+' :: rest => (readDigits rest).map fun r => (some (false, r.1), r.2)
        | rest => (readDigits rest).map fun r => (some (false, r.1), r.2)
      else some (none, c :: rest)
    | [] => some (none, [])
  return (⟨negative, whole, fraction, exponent⟩, text)

/-- The node read and what follows it, nothing when the text broke off inside the node. -/
abbrev Read (α : Type) := α × Option (List Char)

mutual

def readValue : (fuel : Nat) → List Char → Read Node
  | 0, _ => (.unreadable, none)
  | fuel + 1, text =>
    match skip text with
    | '"' :: rest =>
      match readString 0 rest with
      | some (chars, rest) => (.text (chars.map String.ofList), some rest)
      | none => (.unreadable, none)
    | '[' :: rest =>
      match skip rest with
      | ']' :: rest => (.list true [], some rest)
      | rest =>
        let (items, rest) := readItems fuel rest
        (.list true items, rest)
    | '{' :: rest =>
      match skip rest with
      | '}' :: rest => (.record [], some rest)
      | rest =>
        let (entries, rest) := readEntries fuel rest
        (.record entries, rest)
    | 'n' :: 'u' :: 'l' :: 'l' :: rest => (.null, some rest)
    | 't' :: 'r' :: 'u' :: 'e' :: rest => (.bool true, some rest)
    | 'f' :: 'a' :: 'l' :: 's' :: 'e' :: rest => (.bool false, some rest)
    | text =>
      match readLiteral text with
      | some (literal, rest) => (.number literal.number, some rest)
      | none => (.unreadable, none)

def readItems : (fuel : Nat) → List Char → Read (List Node)
  | 0, _ => ([.unreadable], none)
  | fuel + 1, text =>
    match readValue fuel text with
    | (item, none) => ([item], none)
    | (item, some rest) =>
      match skip rest with
      | ',' :: rest =>
        let (items, rest) := readItems fuel rest
        (item :: items, rest)
      | ']' :: rest => ([item], some rest)
      | _ => ([item, .unreadable], none)

def readEntries : (fuel : Nat) → List Char → Read (List (Node × Node))
  | 0, _ => ([(.unreadable, .unreadable)], none)
  | fuel + 1, text =>
    match skip text with
    | '"' :: rest =>
      match readString 0 rest with
      | none => ([(.unreadable, .unreadable)], none)
      | some (chars, rest) =>
        let key : Node := .text (chars.map String.ofList)
        match skip rest with
        | ':' :: rest =>
          match readValue fuel rest with
          | (value, none) => ([(key, value)], none)
          | (value, some rest) =>
            match skip rest with
            | ',' :: rest =>
              let (entries, rest) := readEntries fuel rest
              ((key, value) :: entries, rest)
            | '}' :: rest => ([(key, value)], some rest)
            | _ => ([(key, value), (.unreadable, .unreadable)], none)
        | _ => ([(key, .unreadable)], none)
    | _ => ([(.unreadable, .unreadable)], none)

end

/-- The node at the front of a text. Each step of the readers that does not consume a character
is followed by one that does. -/
def readNode (text : List Char) : Read Node := readValue (2 * text.length + 2) text

def textLevels : Nat := 127

def decodeText {α : Type} (read : Nat → Node → Decoded α) (text : String) : Decoded α := do
  let (node, rest) := readNode text.toList
  let value ← read textLevels node
  match rest with
  | some rest => if (skip rest).isEmpty then return value else throw .malformed
  | none => throw .malformed

end Indicators.Json
