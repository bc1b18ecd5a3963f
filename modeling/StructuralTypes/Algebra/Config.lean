/-!
Settings of a query context. A context takes whatever settings it is given; `validate`
is for whoever reads them. Counts are naturals here and get the bounds of machine words
where documents are read. Of an unreadable document the message does not say what is
wrong with it.
-/

namespace StructuralTypes

structure Config where
  -- remember answers by operand pair
  memoize : Bool := true
  -- nested questions allowed before a question gives up
  maxDepth : Nat := 256
  -- entries of a memo table before it is emptied
  cacheCapacity : Nat := 4096
  deriving DecidableEq

inductive ConfigError where
  -- the document cannot be read as settings
  | unreadable
  | zeroDepth
  | zeroCapacity
  deriving DecidableEq

namespace ConfigError

def message : ConfigError → String
  | .unreadable => "Failed to parse algebra config"
  | .zeroDepth => "Invalid algebra config: max_depth must be at least 1"
  | .zeroCapacity =>
      "Invalid algebra config: cache_capacity must be at least 1 when memoize is enabled"

end ConfigError

namespace Config

/-- Whether a context can work with the settings; the depth is looked at first. -/
def validate (config : Config) : Except ConfigError Config :=
  if config.maxDepth = 0 then .error .zeroDepth
  else if config.memoize ∧ config.cacheCapacity = 0 then .error .zeroCapacity
  else .ok config

def withoutMemoization (config : Config) : Config := { config with memoize := false }

end Config

end StructuralTypes
