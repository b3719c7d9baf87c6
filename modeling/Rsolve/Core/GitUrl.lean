import Rsolve.Core.Names

/-!
# Canonical Git URLs
-/
namespace Rsolve

/-- `NormalizedGitUrl` — a canonical repository URL. -/
@[ext]
structure NormalizedGitUrl where
  /-- The URL. -/
  text : String
deriving DecidableEq

end Rsolve
