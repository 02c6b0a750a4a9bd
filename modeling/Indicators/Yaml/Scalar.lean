import Indicators.Text.Digit

set_option autoImplicit false

/-! A gap within a scalar is the white space between two words: without line breaks it stands for
itself, one break is folded to a space, and of several breaks the first is dropped. -/

namespace Indicators.Yaml

open Indicators

def isSpace (c : Char) : Bool := c == ' ' || c == '\t'

def isBreak (c : Char) : Bool := c == '\n' || c.toNat == 0x2028 || c.toNat == 0x2029

def normalizeBreaks : List Char → List Char
  | [] => []
  | '\r' :: '\n' :: rest => '\n' :: normalizeBreaks rest
  | c :: rest =>
    (if c = '\r' ∨ c.toNat = 0x85 then '\n' else c) :: normalizeBreaks rest

/-- A place in a text. Columns count characters, the offset counts bytes of UTF-8. -/
structure Cursor where
  rest : List Char
  line : Nat := 0
  column : Nat := 0
  offset : Nat := 0

namespace Cursor

def next (c : Cursor) : Cursor :=
  match c.rest with
  | [] => c
  | ch :: rest =>
    let offset := c.offset + ch.utf8Size
    if isBreak ch then ⟨rest, c.line + 1, 0, offset⟩ else ⟨rest, c.line, c.column + 1, offset⟩

def skip (c : Cursor) : Nat → Cursor
  | 0 => c
  | n + 1 => c.next.skip n

end Cursor

def endsWord : List Char → Bool
  | [] => true
  | c :: _ => isSpace c || isBreak c

def isDocumentMark : List Char → Bool
  | '-' :: '-' :: '-' :: rest => endsWord rest
  | '.' :: '.' :: '.' :: rest => endsWord rest
  | _ => false

def Cursor.atMark (c : Cursor) : Bool := c.column == 0 && isDocumentMark c.rest

def gap (text : List Char) : List Char := text.takeWhile fun c => isSpace c || isBreak c

def breaks (gap : List Char) : List Char := gap.filter isBreak

def fold (gap : List Char) : List Char :=
  match breaks gap with
  | [] => gap
  | '\n' :: [] => [' ']
  | '\n' :: more => more
  | kept => kept

/-- The characters that end a plain scalar inside brackets, there also after a colon. -/
def isBracket (c : Char) : Bool := c == ',' || c == '[' || c == ']' || c == '{' || c == '}'

def isStrayColon (c : Char) (rest : List Char) : Bool :=
  c == ':' && rest.head?.any fun d => isBracket d || d == '?'

/-- The characters up to the next white space or indicator, nothing where a colon is out of
place. -/
def plainWord (inBrackets : Bool) : List Char → Option (List Char)
  | [] => some []
  | c :: rest =>
    if isSpace c || isBreak c then some []
    else if inBrackets && isStrayColon c rest then none
    else if (c == ':' && endsWord rest) || (inBrackets && isBracket c) then some []
    else (plainWord inBrackets rest).map (c :: ·)

def tabsIndent (margin column : Nat) : (broken : Bool) → List Char → Bool
  | _, [] => false
  | broken, c :: rest =>
    if isBreak c then tabsIndent margin 0 true rest
    else (broken && c == '\t' && column < margin) || tabsIndent margin (column + 1) broken rest

structure ScalarRead where
  text : List Char
  endsLine : Bool
  after : Cursor

def readPlain (inBrackets : Bool) (margin : Nat) : (fuel : Nat) → (text before : List Char) →
    Cursor → Option ScalarRead
  | 0, text, before, c => some ⟨text, before.any isBreak, c⟩
  | fuel + 1, text, before, c =>
    let stop : ScalarRead := ⟨text, before.any isBreak, c⟩
    if c.atMark || c.rest.head? == some '#' then some stop
    else
      match plainWord inBrackets c.rest with
      | none => none
      | some [] => some stop
      | some word =>
        let text := text ++ fold before ++ word
        let c := c.skip word.length
        let between := gap c.rest
        if between.isEmpty then some ⟨text, false, c⟩
        else if tabsIndent margin c.column false between then none
        else
          let c := c.skip between.length
          if !inBrackets && c.column < margin then some ⟨text, between.any isBreak, c⟩
          else readPlain inBrackets margin fuel text between c

def codeChar? (code : Nat) : Option Char :=
  if h : code.isValidChar then some (Char.ofNatAux code h) else none

def hexChar? (digits : Nat) (text : List Char) : Option (Char × Nat) := do
  if text.length < digits then none
  let code ← Text.digitsValue? 16 (text.take digits)
  return (← codeChar? code, digits + 1)

def escapeChar? : List Char → Option (Char × Nat)
  | '0' :: _ => some (Char.ofNat 0, 1)
  | 'a' :: _ => some (Char.ofNat 7, 1)
  | 'b' :: _ => some (Char.ofNat 8, 1)
  | 't' :: _ => some ('\t', 1)
  | '\t' :: _ => some ('\t', 1)
  | 'n' :: _ => some ('\n', 1)
  | 'v' :: _ => some (Char.ofNat 11, 1)
  | 'f' :: _ => some (Char.ofNat 12, 1)
  | 'r' :: _ => some ('\r', 1)
  | 'e' :: _ => some (Char.ofNat 27, 1)
  | ' ' :: _ => some (' ', 1)
  | '"' :: _ => some ('"', 1)
  | '/' :: _ => some ('/', 1)
  | '\\' :: _ => some ('\\', 1)
  | 'N' :: _ => some (Char.ofNat 0x85, 1)
  | '_' :: _ => some (Char.ofNat 0xA0, 1)
  | 'L' :: _ => some (Char.ofNat 0x2028, 1)
  | 'P' :: _ => some (Char.ofNat 0x2029, 1)
  | 'x' :: rest => hexChar? 2 rest
  | 'u' :: rest => hexChar? 4 rest
  | 'U' :: rest => hexChar? 8 rest
  | _ => none

/-- A piece of a quoted scalar: a character, the closing quote, an escaped line break, or white
space. -/
inductive Piece where
  | char (c : Char) (length : Nat)
  | close
  | joined
  | space

def piece? (double : Bool) : List Char → Option Piece
  | [] => none
  | c :: rest =>
    if isSpace c || isBreak c then some .space
    else if !double && c == '\'' then
      if rest.head? == some '\'' then some (.char '\'' 2) else some .close
    else if double && c == '"' then some .close
    else if double && c == '\\' then
      if rest.head?.any isBreak then some .joined
      else (escapeChar? rest).map fun e => .char e.1 (e.2 + 1)
    else some (.char c 1)

def readQuoted (double : Bool) : (fuel : Nat) → (text : List Char) → Cursor → Option ScalarRead
  | 0, _, _ => none
  | fuel + 1, text, c =>
    if c.atMark then none
    else
      match piece? double c.rest with
      | none => none
      | some (.char ch length) => readQuoted double fuel (text ++ [ch]) (c.skip length)
      | some .close => some ⟨text, false, c.next⟩
      | some .joined =>
        let c := c.skip 2
        let between := gap c.rest
        readQuoted double fuel (text ++ breaks between) (c.skip between.length)
      | some .space =>
        let between := gap c.rest
        readQuoted double fuel (text ++ fold between) (c.skip between.length)

end Indicators.Yaml
