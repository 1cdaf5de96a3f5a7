import OData.Error

/-!
# Primitive types

Types of properties.  Numeric types are ordered by how much they can hold.
-/

set_option autoImplicit false

namespace OData

inductive PrimitiveType where
  | string
  | int32
  | int64
  | decimal
  | double
  | boolean
  | date
  | dateTimeOffset
  | timeOfDay
  | guid
  | binary
  deriving DecidableEq, Repr

namespace PrimitiveType

def all : List PrimitiveType :=
  [string, int32, int64, decimal, double, boolean, date, dateTimeOffset, timeOfDay, guid, binary]

def name : PrimitiveType → String
  | string => "Edm.String"
  | int32 => "Edm.Int32"
  | int64 => "Edm.Int64"
  | decimal => "Edm.Decimal"
  | double => "Edm.Double"
  | boolean => "Edm.Boolean"
  | date => "Edm.Date"
  | dateTimeOffset => "Edm.DateTimeOffset"
  | timeOfDay => "Edm.TimeOfDay"
  | guid => "Edm.Guid"
  | binary => "Edm.Binary"

def ofName? (name : String) : Option PrimitiveType := all.find? (·.name == name)

theorem ofName?_name (ty : PrimitiveType) : ofName? ty.name = some ty := by cases ty <;> decide

def ofName (name : String) : Result PrimitiveType :=
  match ofName? name with
  | some ty => .ok ty
  | none => .error (.configuration "unknown_primitive_type"
      ("unknown primitive type '" ++ name ++ "'"))

def numericRank? : PrimitiveType → Option Nat
  | int32 => some 0
  | int64 => some 1
  | decimal => some 2
  | double => some 3
  | _ => none

def isNumeric (ty : PrimitiveType) : Bool := ty.numericRank?.isSome

def isIntegral (ty : PrimitiveType) : Bool := ty == int32 || ty == int64

end PrimitiveType

end OData
