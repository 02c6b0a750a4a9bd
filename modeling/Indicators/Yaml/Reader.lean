import Indicators.Source.Decode
import Indicators.Yaml.Token

set_option autoImplicit false

/-! Something left out is an empty plain scalar. A value may nest 128 deep. -/

namespace Indicators.Yaml

open Indicators Indicators.Source

def absent : Node := .scalar "" true

/-- The node read and the tokens after it, none when the text broke off inside the node. -/
abbrev Read (α : Type) := α × Option (List Token)

def comesNext (ends : List Token) (tokens : List Token) : Bool :=
  tokens.head?.any fun t => ends.contains t

def entryEnds : List Token := [.key, .value, .blockEnd]

def afterComma : List Token → Option (List Token)
  | .comma :: rest => some rest
  | _ => none

/-- An absent node; that it is absent shows in the next token. -/
def readNothing (tokens : List Token) : Read Node :=
  if comesNext [.broken] tokens then (.unreadable, none) else (absent, some tokens)

mutual

/-- A node; blocks only where they are allowed, and list entries without indentation of their own
only where a record's key or value is read. -/
def readNode (block unindented : Bool) : (fuel : Nat) → List Token → Read Node
  | 0, _ => (.unreadable, none)
  | _, [] => (.unreadable, none)
  | fuel + 1, t :: rest =>
    match t with
    | .scalar text plain => (.scalar text plain, some rest)
    | .listOpen =>
      let (items, rest) := readItems true fuel rest
      (.list false items, rest)
    | .recordOpen =>
      let (entries, rest) := readEntries true fuel rest
      (.record entries, rest)
    | .sequenceStart =>
      if block then
        let (items, rest) := readBlockItems fuel rest
        (.list false items, rest)
      else (.unreadable, none)
    | .mappingStart =>
      if block then
        let (entries, rest) := readBlockEntries fuel rest
        (.record entries, rest)
      else (.unreadable, none)
    | .blockEntry =>
      if unindented then
        let (items, rest) := readUnindentedItems fuel (t :: rest)
        (.list false items, rest)
      else (.unreadable, none)
    | _ => (.unreadable, none)

def readUnless (ends : List Token) (block unindented : Bool) : (fuel : Nat) → List Token →
    Read Node
  | 0, _ => (.unreadable, none)
  | fuel + 1, tokens =>
    if comesNext ends tokens then (absent, some tokens)
    else readNode block unindented fuel tokens

def readBlockItems : (fuel : Nat) → List Token → Read (List Node)
  | fuel + 1, .blockEntry :: rest =>
    match readUnless [.blockEntry, .blockEnd] true false fuel rest with
    | (item, none) => ([item], none)
    | (item, some rest) =>
      let (items, rest) := readBlockItems fuel rest
      (item :: items, rest)
  | _ + 1, .blockEnd :: rest => ([], some rest)
  | _, _ => ([.unreadable], none)

def readUnindentedItems : (fuel : Nat) → List Token → Read (List Node)
  | 0, _ => ([.unreadable], none)
  | fuel + 1, .blockEntry :: rest =>
    match readUnless (.blockEntry :: entryEnds) true false fuel rest with
    | (item, none) => ([item], none)
    | (item, some rest) =>
      let (items, rest) := readUnindentedItems fuel rest
      (item :: items, rest)
  | _ + 1, rest => ([], some rest)

def readEntryValue (ends : List Token) (block : Bool) : (fuel : Nat) → List Token → Read Node
  | fuel + 1, .value :: rest => readUnless ends block block fuel rest
  | _, rest => readNothing rest

def readBlockEntries : (fuel : Nat) → List Token → Read (List (Node × Node))
  | fuel + 1, .key :: rest =>
    match readUnless entryEnds true true fuel rest with
    | (key, none) => ([(key, .unreadable)], none)
    | (key, some rest) =>
      match readEntryValue entryEnds true fuel rest with
      | (value, none) => ([(key, value)], none)
      | (value, some rest) =>
        let (entries, rest) := readBlockEntries fuel rest
        ((key, value) :: entries, rest)
  | _ + 1, .blockEnd :: rest => ([], some rest)
  | _, _ => ([(.unreadable, .unreadable)], none)

def readItems (first : Bool) : (fuel : Nat) → List Token → Read (List Node)
  | 0, _ => ([.unreadable], none)
  | _ + 1, .listClose :: rest => ([], some rest)
  | fuel + 1, tokens =>
    match if first then some tokens else afterComma tokens with
    | none => ([.unreadable], none)
    | some (.listClose :: rest) => ([], some rest)
    | some tokens =>
      match readItem fuel tokens with
      | (item, none) => ([item], none)
      | (item, some rest) =>
        let (items, rest) := readItems false fuel rest
        (item :: items, rest)

/-- An item of a list in brackets; a key begins a record of one entry. A key that is left out takes
the token after its mark with it. -/
def readItem : (fuel : Nat) → List Token → Read Node
  | 0, _ => (.unreadable, none)
  | fuel + 1, .key :: rest =>
    match if comesNext [.value, .comma, .listClose] rest then (absent, some (rest.drop 1))
      else readNode false false fuel rest with
    | (key, none) => (.record [(key, .unreadable)], none)
    | (key, some rest) =>
      let (value, rest) := readEntryValue [.comma, .listClose] false fuel rest
      (.record [(key, value)], rest)
  | fuel + 1, tokens => readNode false false fuel tokens

def readEntries (first : Bool) : (fuel : Nat) → List Token → Read (List (Node × Node))
  | 0, _ => ([(.unreadable, .unreadable)], none)
  | _ + 1, .recordClose :: rest => ([], some rest)
  | fuel + 1, tokens =>
    match if first then some tokens else afterComma tokens with
    | none => ([(.unreadable, .unreadable)], none)
    | some (.recordClose :: rest) => ([], some rest)
    | some tokens =>
      match readEntry fuel tokens with
      | (entry, none) => ([entry], none)
      | (entry, some rest) =>
        let (entries, rest) := readEntries false fuel rest
        (entry :: entries, rest)

def readEntry : (fuel : Nat) → List Token → Read (Node × Node)
  | 0, _ => ((.unreadable, .unreadable), none)
  | fuel + 1, .key :: rest =>
    match readUnless [.value, .comma, .recordClose] false false fuel rest with
    | (key, none) => ((key, .unreadable), none)
    | (key, some rest) =>
      let (value, rest) := readEntryValue [.comma, .recordClose] false fuel rest
      ((key, value), rest)
  | fuel + 1, tokens =>
    match readNode false false fuel tokens with
    | (key, none) => ((key, .unreadable), none)
    | (key, some rest) =>
      let (value, rest) := readNothing rest
      ((key, value), rest)

end

def readDocument (tokens : List Token) : Read Node :=
  let fuel := 4 * tokens.length + 4
  match tokens with
  | .textEnd :: _ => (absent, some tokens)
  | .documentStart :: rest =>
    readUnless [.documentStart, .documentEnd, .textEnd] true false fuel rest
  | _ => readNode true false fuel tokens

def isOver (tokens : List Token) : Bool := tokens.dropWhile (· == .documentEnd) == [.textEnd]

def textLevels : Nat := 128

def decodeText {α : Type} (read : Nat → Node → Decoded α) (text : String) : Decoded α := do
  let (node, rest) := readDocument (tokens text.toList)
  let value ← read textLevels node
  if rest.any isOver then return value else throw .malformed

end Indicators.Yaml
