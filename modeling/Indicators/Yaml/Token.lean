import Indicators.Yaml.Scalar

set_option autoImplicit false

/-! Blocks are found from the columns of what stands in them. That a token begins a key is known
only at the colon after it, so its place is kept as a possible key and the key mark is put in there
later; a possible key lasts to the end of its line and for 1024 bytes. Where a text breaks the
rules, or uses directives, anchors, tags or block scalars, what waits is lost and the tokens end in
`broken`. -/

namespace Indicators.Yaml

inductive Token where
  | documentStart
  | documentEnd
  | sequenceStart
  | mappingStart
  | blockEnd
  | listOpen
  | listClose
  | recordOpen
  | recordClose
  | blockEntry
  | comma
  | key
  | value
  | scalar (text : String) (plain : Bool)
  | textEnd
  | broken
deriving DecidableEq, Repr

/-- A token that may turn out to begin a key. -/
structure PossibleKey where
  index : Nat
  line : Nat
  column : Nat
  offset : Nat
  /-- It stands where only a key can. -/
  needed : Bool

structure Scan where
  cursor : Cursor
  given : Nat := 0
  queue : List Token := []
  columns : List Nat := []
  possible : Option PossibleKey := none
  /-- The possible keys around the open brackets, the innermost first. -/
  outer : List (Option PossibleKey) := []
  keyAllowed : Bool := true

namespace Scan

def inBrackets (s : Scan) : Bool := !s.outer.isEmpty

def margin (s : Scan) : Nat :=
  match s.columns with
  | column :: _ => column + 1
  | [] => 0

def count (s : Scan) : Nat := s.given + s.queue.length

def emit (t : Token) (s : Scan) : Scan := { s with queue := s.queue ++ [t] }

/-- Put a token before the one with so many tokens before it. -/
def emitBefore (index : Nat) (t : Token) (s : Scan) : Scan :=
  { s with queue := s.queue.insertIdx (index - s.given) t }

def skip (n : Nat) (s : Scan) : Scan := { s with cursor := s.cursor.skip n }

def allowKey (allowed : Bool) (s : Scan) : Scan := { s with keyAllowed := allowed }

def indicator (t : Token) (length : Nat) (s : Scan) : Scan := (s.emit t).skip length

def dropKey (s : Scan) : Option Scan :=
  if s.possible.any (·.needed) then none else some { s with possible := none }

def saveKey (s : Scan) : Option Scan :=
  if s.keyAllowed then
    (dropKey s).map fun s =>
      { s with possible := some {
          index := s.count
          line := s.cursor.line
          column := s.cursor.column
          offset := s.cursor.offset
          needed := !s.inBrackets && s.columns.head? == some s.cursor.column } }
  else some s

def isStale (c : Cursor) (k : PossibleKey) : Bool :=
  k.line < c.line || k.offset + 1024 < c.offset

def dropStale (s : Scan) : Option Scan :=
  let stale (k : Option PossibleKey) : Bool := k.any (isStale s.cursor)
  let refresh (k : Option PossibleKey) : Option PossibleKey := if stale k then none else k
  if (s.possible :: s.outer).any fun k => stale k && k.any (·.needed) then none
  else some { s with possible := refresh s.possible, outer := s.outer.map refresh }

def unsettled (s : Scan) : Bool :=
  (s.possible :: s.outer).any fun k => k.any (·.index == s.given)

def closeBlocks (column : Nat) (s : Scan) : Scan :=
  if s.inBrackets then s
  else
    let closed := s.columns.takeWhile (column < ·)
    { s with
      columns := s.columns.dropWhile (column < ·)
      queue := s.queue ++ closed.map fun _ => Token.blockEnd }

def closeAllBlocks (s : Scan) : Scan :=
  if s.inBrackets then s
  else { s with columns := [], queue := s.queue ++ s.columns.map fun _ => Token.blockEnd }

def openBlock (column index : Nat) (t : Token) (s : Scan) : Scan :=
  if s.inBrackets || s.columns.head?.any (column ≤ ·) then s
  else { s.emitBefore index t with columns := column :: s.columns }

def byteOrderMark : Char := Char.ofNat 0xFEFF

/-- Skip white space and comments, and a byte order mark at the start of a line. A tab does not
count as white space where a key may begin. A new line allows keys, but for inside brackets. -/
def skipBlanks : (fuel : Nat) → Scan → Scan
  | 0, s => s
  | fuel + 1, s =>
    match s.cursor.rest with
    | [] => s
    | c :: _ =>
      if c = ' ' || (c = '\t' && (s.inBrackets || !s.keyAllowed)) ||
          (c = byteOrderMark && s.cursor.column == 0) then
        skipBlanks fuel (s.skip 1)
      else if c = '#' then
        let comment := s.cursor.rest.takeWhile fun d => !isBreak d
        skipBlanks fuel (s.skip comment.length)
      else if isBreak c then
        skipBlanks fuel ((s.skip 1).allowKey (s.keyAllowed || !s.inBrackets))
      else s

def fetchMark (s : Scan) (t : Token) : Option Scan := do
  let s ← s.closeAllBlocks.dropKey
  return (s.allowKey false).indicator t 3

def fetchOpen (s : Scan) (t : Token) : Option Scan := do
  let s ← s.saveKey
  return ({ s with possible := none, outer := s.possible :: s.outer }.allowKey true).indicator t 1

def fetchClose (s : Scan) (t : Token) : Option Scan := do
  let s ← s.dropKey
  let s := match s.outer with
    | possible :: outer => { s with possible, outer }
    | [] => s
  return (s.allowKey false).indicator t 1

def fetchComma (s : Scan) : Option Scan := do
  let s ← s.dropKey
  return (s.allowKey true).indicator .comma 1

def fetchEntry (s : Scan) : Option Scan := do
  if !s.inBrackets && !s.keyAllowed then none
  let s ← (s.openBlock s.cursor.column s.count .sequenceStart).dropKey
  return (s.allowKey true).indicator .blockEntry 1

def fetchKey (s : Scan) : Option Scan := do
  if !s.inBrackets && !s.keyAllowed then none
  let s ← (s.openBlock s.cursor.column s.count .mappingStart).dropKey
  return (s.allowKey (!s.inBrackets)).indicator .key 1

def fetchValue (s : Scan) : Option Scan :=
  match s.possible with
  | some k =>
    let s := (s.emitBefore k.index .key).openBlock k.column k.index .mappingStart
    some (({ s with possible := none }.allowKey false).indicator .value 1)
  | none =>
    if !s.inBrackets && !s.keyAllowed then none
    else
      let s := s.openBlock s.cursor.column s.count .mappingStart
      some ((s.allowKey (!s.inBrackets)).indicator .value 1)

def emitScalar (s : Scan) (plain : Bool) (r : ScalarRead) : Scan :=
  { (s.emit (.scalar (String.ofList r.text) plain)).allowKey r.endsLine with cursor := r.after }

def fetchQuoted (fuel : Nat) (double : Bool) (s : Scan) : Option Scan := do
  let s ← s.saveKey
  return s.emitScalar false (← readQuoted double fuel [] s.cursor.next)

def fetchPlain (fuel : Nat) (s : Scan) : Option Scan := do
  let s ← s.saveKey
  return s.emitScalar true (← readPlain s.inBrackets s.margin fuel [] [] s.cursor)

def isIndicator (c : Char) : Bool :=
  "-?:,[]\x7b\x7d#&*!|>'\"%@".toList.contains c || c.toNat == 0x60

def beginsPlain (s : Scan) (c : Char) (rest : List Char) : Bool :=
  !(isIndicator c || isSpace c || isBreak c) ||
    (c == '-' && !rest.head?.any isSpace) ||
    (!s.inBrackets && (c == '?' || c == ':') && !endsWord rest)

def fetchEnd (s : Scan) : Option Scan := do
  let c := s.cursor
  let after := if c.column = 0 then c else { c with line := c.line + 1, column := 0 }
  let s ← { s with cursor := after }.closeAllBlocks.dropKey
  return s.emit .textEnd

def fetchHere (fuel : Nat) (s : Scan) : Option Scan :=
  match s.cursor.rest with
  | [] => s.fetchEnd
  | c :: rest =>
    if s.cursor.column = 0 ∧ c = '%' then none
    else if s.cursor.atMark then s.fetchMark (if c = '-' then .documentStart else .documentEnd)
    else if c = '[' then s.fetchOpen .listOpen
    else if c = '{' then s.fetchOpen .recordOpen
    else if c = ']' then s.fetchClose .listClose
    else if c = '}' then s.fetchClose .recordClose
    else if c = ',' then s.fetchComma
    else if c = '-' && endsWord rest then s.fetchEntry
    else if c = '?' && (s.inBrackets || endsWord rest) then s.fetchKey
    else if c = ':' && (s.inBrackets || endsWord rest) then s.fetchValue
    else if c = '\'' then s.fetchQuoted fuel false
    else if c = '"' then s.fetchQuoted fuel true
    else if s.beginsPlain c rest then s.fetchPlain fuel
    else none

def fetch (fuel : Nat) (s : Scan) : Option Scan := do
  let s ← (s.skipBlanks fuel).dropStale
  (s.closeBlocks s.cursor.column).fetchHere fuel

/-- Fetch until the first token of the queue is settled. Every fetch but the last one consumes a
character. -/
def settle : (fuel : Nat) → Scan → Option Scan
  | 0, _ => none
  | fuel + 1, s =>
    if s.queue.isEmpty then (s.fetch fuel).bind (settle fuel)
    else do
      let s ← s.dropStale
      if s.unsettled then (s.fetch fuel).bind (settle fuel) else some s

/-- All tokens, as they are given out: at most four for every character, since a fetch brings a
token, the start of a block and a key mark before it, and later the end of that block. -/
def giveOut : (fuel : Nat) → Scan → List Token
  | 0, _ => [.broken]
  | fuel + 1, s =>
    match s.settle fuel with
    | none => [.broken]
    | some s =>
      match s.queue with
      | [] => [.broken]
      | .textEnd :: _ => [.textEnd]
      | t :: queue => t :: giveOut fuel { s with queue, given := s.given + 1 }

end Scan

def isPermitted (c : Char) : Bool :=
  let n := c.toNat
  n == 0x9 || n == 0xA || n == 0xD || (0x20 ≤ n && n ≤ 0x7E) || n == 0x85 ||
    (0xA0 ≤ n && n != 0xFFFE && n != 0xFFFF)

def tokens (text : List Char) : List Token :=
  if text.all isPermitted then
    let text := normalizeBreaks text
    Scan.giveOut (4 * text.length + 8) { cursor := { rest := text } }
  else [.broken]

end Indicators.Yaml
