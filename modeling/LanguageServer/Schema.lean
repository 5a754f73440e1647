import LanguageServer.Json.Value
import LanguageServer.RequestId

namespace LanguageServer

mutual

/-- The kinds of values that messages are made of. -/
inductive Schema where
  | text
  | word (w : Width)
  | id
  | any
  | list (item : Schema)
  | record (name : String) (members : Members)

/-- The members of a record, in their order. One that is optional may be missing or null. If it is
positional, a record that is written as a list has a place for it all the same. -/
inductive Members where
  | nil
  | required (name : String) (s : Schema) (rest : Members)
  | optional (name : String) (positional : Bool) (s : Schema) (rest : Members)

end

mutual

/-- What a value of some kind is once it has been read. -/
@[reducible] def Schema.Carrier : Schema → Type
  | .text => String
  | .word w => Word w
  | .id => RequestId
  | .any => Json.Value
  | .list item => List item.Carrier
  | .record _ members => members.Carrier
termination_by structural s => s

@[reducible] def Members.Carrier : Members → Type
  | .nil => Unit
  | .required _ s rest => s.Carrier × rest.Carrier
  | .optional _ _ s rest => Option s.Carrier × rest.Carrier
termination_by structural ms => ms

end

namespace Members

/-- Members that have been met so far, in any order. -/
@[reducible] def Slots : Members → Type
  | .nil => Unit
  | .required _ s rest => Option s.Carrier × rest.Slots
  | .optional _ _ s rest => Option (Option s.Carrier) × rest.Slots
termination_by structural ms => ms

/-- No member has been met. -/
def empty : (ms : Members) → ms.Slots
  | .nil => ()
  | .required _ _ rest => (none, rest.empty)
  | .optional _ _ _ rest => (none, rest.empty)
termination_by structural ms => ms

def size : Members → Nat
  | .nil => 0
  | .required _ _ rest => rest.size + 1
  | .optional _ _ _ rest => rest.size + 1
termination_by structural ms => ms

def names : Members → List String
  | .nil => []
  | .required name _ rest => name :: rest.names
  | .optional name _ _ rest => name :: rest.names
termination_by structural ms => ms

end Members

end LanguageServer
