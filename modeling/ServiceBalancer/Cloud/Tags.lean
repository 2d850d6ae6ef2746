import ServiceBalancer.SortedMap
import ServiceBalancer.Text.Blank
import ServiceBalancer.WellKnown

/-! Tags of a balancer, written as items `key=value` with commas between them. -/
namespace ServiceBalancer.Tags

/-- The fields of a text between separators; there is always at least one. -/
def fields (separator : Char) : List Char → List (List Char)
  | [] => [[]]
  | c :: rest =>
    if c = separator then [] :: fields separator rest
    else
      match fields separator rest with
      | [] => [[c]]
      | field :: others => (c :: field) :: others

/-- The tag that an item gives. Key and value are trimmed, a missing value is empty, what follows
a second equals sign is ignored, and an item without a key gives no tag. -/
def ofItem? (item : List Char) : Option (String × String) :=
  match fields '=' item with
  | [] => none
  | key :: rest =>
    let key := Text.trimChars key
    if key.isEmpty then none
    else some (.ofList key, .ofList (Text.trimChars (rest.headD [])))

/-- The tags of a written list; the last value of a repeated key counts. -/
def parse (s : String) : SortedMap String String :=
  .ofList ((fields ',' s.toList).filterMap ofItem?)

def ofAnnotations (annotations : SortedMap String String) : SortedMap String String :=
  match annotations.get? WellKnown.additionalResourceTags with
  | some s => parse s
  | none => ∅

end ServiceBalancer.Tags
