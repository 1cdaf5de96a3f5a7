/-!
# Capabilities

Operations that an entity set may offer.
-/

set_option autoImplicit false

namespace OData

inductive Capability where
  | read
  | query
  | count
  | create
  | update
  | delete
  | link
  deriving DecidableEq, Repr

namespace Capability

def all : List Capability := [read, query, count, create, update, delete, link]

theorem mem_all (c : Capability) : c ∈ all := by cases c <;> decide

def name : Capability → String
  | read => "read"
  | query => "query"
  | count => "count"
  | create => "create"
  | update => "update"
  | delete => "delete"
  | link => "link"

def ofName? (name : String) : Option Capability := all.find? (·.name == name)

end Capability

end OData
