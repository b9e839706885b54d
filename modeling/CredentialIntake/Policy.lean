/-!
# Frontend policies

What the intake asks about a frontend: the identity it must present, and the
local user each of its security classes stands for.
-/

namespace CredentialIntake

structure FrontendPolicy where
  /-- The identity expected of the frontend with a security name. -/
  identityOf? : (securityName : String) → Option String
  /-- The local user for a security class of a frontend. -/
  usernameOf? : (securityName securityClass : String) → Option String

end CredentialIntake
