import Indicators.Metric.Configuration
import Indicators.Pipeline.Path
import Indicators.Pipeline.Stage
import Indicators.Schema.FieldTypes
import Indicators.Text.Blank
import Indicators.Text.LetterCase

set_option autoImplicit false

/-! A section walk takes the first segment for a section and the others for field names inside it,
without regard to the case of ASCII letters; where it finds nothing the segments are the path.
Relative segments continue the section path of the configuration. -/

namespace Indicators.Plan

open Indicators.Metric Indicators.Pipeline Indicators.Schema

inductive DateLocator where
  | sectionWalk
  | sectionRelative
deriving DecidableEq, Repr

namespace DateLocator

def name : DateLocator → String
  | sectionWalk => "section_walk"
  | sectionRelative => "section_relative"

def normalName (text : String) : String :=
  String.ofList ((Text.lower (Text.trim text)).toList.map fun c => if c = '-' then '_' else c)

def ofName? (text : String) : Option DateLocator :=
  [sectionWalk, sectionRelative].find? fun l => l.name == normalName text

def unknownMessage (text : String) : String :=
  "unknown date field locator '" ++ normalName text ++
    "', expected section_walk or section_relative"

end DateLocator

def findName? (names : List String) (text : String) : Option String :=
  names.find? fun name => Text.sameIgnoringAsciiCase name text

def walkFields (paths : List String) : (path : String) → List String → Option String
  | path, [] => some path
  | path, name :: rest => do walkFields paths (← findName? paths (within path name)) rest

def walkSections (types : FieldTypes) : List String → Option String
  | [] => none
  | [_] => none
  | first :: rest => do
    let sectionName ← findName? types.sectionNames first
    return within sectionName (← walkFields (types.paths sectionName) "" rest)

def locateDateField (locator : DateLocator) (types : FieldTypes)
    (sectionPath pathSegments : List String) : String :=
  match locator with
  | .sectionRelative => within (dotted sectionPath) (dotted pathSegments)
  | .sectionWalk => (walkSections types pathSegments).getD (dotted pathSegments)

def dateStage (locator : DateLocator) (types : FieldTypes) (sectionPath : List String)
    (range : DateRange) : Stage :=
  .filter <| .between (locateDateField locator types sectionPath range.pathSegments)
    (.timestamp range.first) (.timestamp range.last)

end Indicators.Plan
