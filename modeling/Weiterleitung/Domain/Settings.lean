/-
# `Domain.Settings` — the directions of mail, and the settings the router and the worker read

The domains are the ones the server takes mail for; the first one is where reverse aliases
are made.
-/
import Mathlib
import Weiterleitung.Domain.EmailAddress

namespace Weiterleitung

open Text Unicode

/-- Which way a queued message is travelling. -/
inductive Direction where
  | forward
  | reply
  deriving DecidableEq

structure AliasSettings where
  domains : List Str
  reverseAliasPrefix : Str

namespace AliasSettings

/-- The first domain.  The `expect` on an empty list cannot fire where the router
asks for it: by then it has found an owned domain. -/
def defaultDomain (settings : AliasSettings) : Str := settings.domains.headD []

def ownsDomain (settings : AliasSettings) (domain : Str) : Bool :=
  settings.domains.any fun d => eqIgnoreAsciiCase d (trimEndMatches '.' domain)

end AliasSettings

/-- Text of `DeliverySettings` that the queue and the worker use. -/
structure DeliverySettings where
  mailDir : Str
  maxAttempts : Int

end Weiterleitung
