set_option autoImplicit false

namespace Indicators.Store

inductive AccessError where
  | registryUnreadable (key : String)
  | collectionUnavailable (name : String)
deriving DecidableEq, Repr

def AccessError.message : AccessError → String
  | registryUnreadable key => "Document store error: registry cannot read '" ++ key ++ "'"
  | collectionUnavailable name =>
    "Document store error: collection '" ++ name ++ "' is unavailable"

end Indicators.Store
