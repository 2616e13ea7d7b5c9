import DashboardScript.Script.Arguments

namespace DashboardScript

-- What becomes of a panel whose type has no constructor.
inductive UnsupportedPolicy where
  -- the conversion fails
  | abort
  -- the panel is left out
  | skip
  deriving DecidableEq

-- Where a script takes its title and tags from.
inductive TitleSource where
  -- the configured title, and no tags
  | fixed
  -- the dashboard, with the configured title where it has none
  | dashboard
  deriving DecidableEq

structure PreambleSettings where
  title : String := "World Server New"
  uid : String := "arkadia-worldservers-new"
  titleSource : TitleSource := .fixed
  deriving DecidableEq

structure Settings where
  inputPath : String := "./test.json"
  literalStyle : Script.LiteralStyle := .quoted
  unsupportedPolicy : UnsupportedPolicy := .abort
  preamble : PreambleSettings := {}
  deriving DecidableEq

end DashboardScript
