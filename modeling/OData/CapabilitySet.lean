import OData.Error

/-!
# Sets of capabilities
-/

set_option autoImplicit false

namespace OData

/-- A set of capabilities, given by its membership test. -/
structure CapabilitySet where
  contains : Capability → Bool

namespace CapabilitySet

def none : CapabilitySet := ⟨fun _ => false⟩

def all : CapabilitySet := ⟨fun _ => true⟩

def insert (s : CapabilitySet) (c : Capability) : CapabilitySet :=
  ⟨fun d => d == c || s.contains d⟩

def erase (s : CapabilitySet) (c : Capability) : CapabilitySet :=
  ⟨fun d => d != c && s.contains d⟩

def inter (s t : CapabilitySet) : CapabilitySet := ⟨fun c => s.contains c && t.contains c⟩

def ofList (cs : List Capability) : CapabilitySet := ⟨fun c => cs.contains c⟩

def readOnly : CapabilitySet := ofList [.read, .query, .count]

def toList (s : CapabilitySet) : List Capability := Capability.all.filter s.contains

/-- Fails unless the capability is in the set. -/
def require (s : CapabilitySet) (c : Capability) : Result Unit :=
  if s.contains c then .ok () else .error (.notImplemented c)

@[simp] theorem contains_insert (s : CapabilitySet) (c d : Capability) :
    (s.insert c).contains d = (d == c || s.contains d) := rfl

@[simp] theorem contains_erase (s : CapabilitySet) (c d : Capability) :
    (s.erase c).contains d = (d != c && s.contains d) := rfl

@[simp] theorem contains_inter (s t : CapabilitySet) (c : Capability) :
    (s.inter t).contains c = (s.contains c && t.contains c) := rfl

end CapabilitySet

end OData
