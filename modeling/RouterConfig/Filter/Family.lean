/-!
# Address families

Static and dynamic filters come in two families, told apart by the first word of
their commands.
-/

namespace RouterConfig

/-- The family of the addresses that a filter looks at. -/
inductive IpFamily where
  | ipv4
  | ipv6
deriving DecidableEq, Repr

namespace IpFamily

/-- The first word of the commands of a family. -/
def word : IpFamily → String
  | .ipv4 => "ip"
  | .ipv6 => "ipv6"

/-- Every family. -/
def all : List IpFamily := [.ipv4, .ipv6]

end IpFamily

end RouterConfig
