import RestGateway.Dispatch
import RestGateway.Settings.Load

/-!
# Limits from settings
-/

namespace RestGateway.Settings

/-- The limits that a gateway with these settings keeps. -/
def limits (s : Settings) : Limits where
  timeout := s.requestLimit
  bodyLimit := s.bodyLimit

end RestGateway.Settings
