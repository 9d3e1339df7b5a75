import DesignSystem.Cache.Basic
import DesignSystem.Numeric.Shortest

/-!
# What a cache has been asked
-/

set_option autoImplicit false

namespace DesignSystem

/-- The counts of a cache. -/
structure CacheStats where
  hits : Nat
  misses : Nat
  coalesced : Nat
  evictions : Nat
  size : Nat
  capacity : Nat
  deriving DecidableEq

namespace CacheStats

/-- The share of requests that did not begin a flight; zero if there were none. -/
def hitRate (s : CacheStats) : Scalar :=
  let total := s.hits + s.coalesced + s.misses
  if total = 0 then .finite .zero
  else (Scalar.ofNat (s.hits + s.coalesced)).div (Scalar.ofNat total)

end CacheStats

/-- The counts of a cache. -/
def Cache.stats {ε α : Type} (c : Cache ε α) : CacheStats where
  hits := c.hits
  misses := c.misses
  coalesced := c.coalesced
  evictions := c.evictions
  size := c.size
  capacity := c.capacity

end DesignSystem
