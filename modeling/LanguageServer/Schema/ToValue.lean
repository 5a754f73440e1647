import LanguageServer.Schema

namespace LanguageServer

open Json (Value)

def RequestId.toValue : RequestId → Value
  | .number n => .number (.integer n.val)
  | .text s => .text s

mutual

/-- The value that stands for something of the given kind. Records are objects. -/
def Schema.toValue : (s : Schema) → s.Carrier → Value
  | .text, t => .text t
  | .word _, x => .number (.integer x.val)
  | .id, i => i.toValue
  | .any, v => v
  | .list item, as => .list (as.map item.toValue)
  | .record _ members, as => .object (members.toMembers as)
termination_by structural s => s

/-- The members of an object for a record. An optional one that is not there is left out. -/
def Members.toMembers : (ms : Members) → ms.Carrier → List (String × Value)
  | .nil, _ => []
  | .required name s rest, (a, as) => (name, s.toValue a) :: rest.toMembers as
  | .optional name _ s rest, (slot, as) =>
    match slot with
    | none => rest.toMembers as
    | some a => (name, s.toValue a) :: rest.toMembers as
termination_by structural ms => ms

end

end LanguageServer
