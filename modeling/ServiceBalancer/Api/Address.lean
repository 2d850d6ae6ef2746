/-! Addresses of requests: a path, and behind it perhaps a query and a fragment. -/
namespace ServiceBalancer.Api

def endsPath (c : Char) : Bool := c = '?' || c = '#'

/-- Whether a path may have a character. Blanks, control characters and a few marks are left out. -/
def isPathChar (c : Char) : Bool := ' ' < c && c ∉ ['#', '<', '>', '?', '\x60']

def isQueryChar (c : Char) : Bool := ' ' < c && c ∉ ['"', '#', '<', '>']

def pathOf (address : String) : String := .ofList (address.toList.takeWhile (fun c => !endsPath c))

/-- Whether a path and a query may have the characters of theirs. A fragment may have any. -/
def isAddress (address : String) : Bool :=
  let query := (address.toList.dropWhile (fun c => !endsPath c)).takeWhile (· ≠ '#')
  (pathOf address).toList.all isPathChar && query.all isQueryChar

end ServiceBalancer.Api
