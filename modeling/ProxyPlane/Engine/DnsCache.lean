import ProxyPlane.Net.Address

/-!
# The cache of names

What the engine has found out about names.  It outlives an engine as long as the kind of address
that is asked for stays the same.
-/

set_option autoImplicit false
namespace ProxyPlane

/-- Names and their addresses, each name once. -/
structure DnsCache where
  entries : List (String × List IpAddress)
  deriving DecidableEq, Repr

namespace DnsCache

/-- Nothing is known. -/
def empty : DnsCache := ⟨[]⟩

/-- The addresses of a name. -/
def get? (c : DnsCache) (name : String) : Option (List IpAddress) := c.entries.lookup name

/-- Replaces what is known about a name. -/
def insert (c : DnsCache) (name : String) (addresses : List IpAddress) : DnsCache :=
  ⟨(name, addresses) :: c.entries.filter fun e => e.1 != name⟩

/-- How many names are known. -/
def size (c : DnsCache) : Nat := c.entries.length

end DnsCache
end ProxyPlane
