import Indicators.Json.Reader
import Indicators.Pipeline.Run
import Indicators.Store.AccessError

set_option autoImplicit false

/-! A document without an identifier gets one from its collection and a number that the store uses
once. -/

namespace Indicators

open Indicators.Pipeline Indicators.Source Indicators.Store

structure MemoryStore where
  collections : Directory (List Json) := []
  nextNumber : Nat := 0
  failing : List String := []
  /-- Milliseconds before an answer. -/
  latency : Nat := 0
  slow : Directory Nat := []

namespace MemoryStore

def documents (s : MemoryStore) (collection : String) : List Json :=
  (s.collections.lookup collection).getD []

/-- A document with an identifier, and whether that was generated from the number. -/
def identified (collection : String) (number : Nat) : Json → Json × Bool
  | .object members =>
    match Directory.lookup "_id" members with
    | some _ => (.object members, false)
    | none =>
      let id := collection ++ "-" ++ toString number
      (.object (Directory.put "_id" (.string id) members), true)
  | doc => (doc, false)

def insert (s : MemoryStore) (collection : String) (doc : Json) : MemoryStore :=
  let (doc, generated) := identified collection s.nextNumber doc
  { s with
    collections := s.collections.put collection (s.documents collection ++ [doc])
    nextNumber := if generated then s.nextNumber + 1 else s.nextNumber }

def insertMany (s : MemoryStore) (collection : String) (docs : List Json) : MemoryStore :=
  docs.foldl (fun s doc => s.insert collection doc) s

/-- Insert the documents that a JSON text lists, and count them. A text that is no such list adds
none. -/
def load (s : MemoryStore) (collection text : String) : Decoded (Nat × MemoryStore) := do
  let docs ← Json.decodeText (Node.asList · Node.asJson) text
  return (docs.length, s.insertMany collection docs)

def fail (s : MemoryStore) (collection : String) : MemoryStore :=
  { s with failing := collection :: s.failing }

def slowDown (s : MemoryStore) (collection : String) (milliseconds : Nat) : MemoryStore :=
  { s with slow := s.slow.put collection milliseconds }

def latencyOf (s : MemoryStore) (collection : String) : Nat :=
  (s.slow.lookup collection).getD s.latency

def aggregate (s : MemoryStore) (collection : String) (stages : List Stage) :
    Except AccessError (List Json) :=
  if s.failing.contains collection then .error (.collectionUnavailable collection)
  else .ok (run s.documents (s.documents collection) stages)

end MemoryStore

end Indicators
