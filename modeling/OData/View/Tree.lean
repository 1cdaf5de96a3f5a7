import OData.Bound.Basic
import OData.Json.Basic
import OData.Key
import OData.Options.Basic

/-!
# Views of trees

Values, expressions and options as JSON, for tools that look at how a request was understood.  A
value is shown as its type and its literal.
-/

set_option autoImplicit false

namespace OData

namespace Json

def texts (list : List String) : Json := .array (list.map .str)

def orNull {α : Type} (view : α → Json) : Option α → Json
  | some a => view a
  | none => .null

end Json

def Value.view (v : Value) : Json :=
  .array [Json.orNull (fun ty : PrimitiveType => .str ty.name) v.type?, .str v.toText]

def Key.view (key : Key) : Json :=
  .object [("text", .str key.toText),
    ("values", .array (key.values.map fun (name, v) => .array [.str name.text, v.view]))]

namespace Expr

mutual

def view : Expr → Json
  | literal v => .object [("lit", v.view)]
  | path p => .object [("path", Json.texts p)]
  | binary op l r => .object [("op", .str op.keyword), ("l", view l), ("r", view r)]
  | not e => .object [("not", view e)]
  | negate e => .object [("neg", view e)]
  | member e items => .object [("in", view e), ("items", .array (listView items))]
  | call f arguments => .object [("call", .str f.name), ("args", .array (listView arguments))]

def listView : List Expr → List Json
  | [] => []
  | e :: rest => view e :: listView rest

end

end Expr

namespace BoundExpr

mutual

def view : BoundExpr → Json
  | literal v => .object [("lit", v.view)]
  | property name ty => .object [("prop", Json.texts [name.text, ty.name])]
  | compare op l r => .object [("cmp", .str op.keyword), ("l", view l), ("r", view r)]
  | and l r => .object [("and", .array [view l, view r])]
  | or l r => .object [("or", .array [view l, view r])]
  | not e => .object [("not", view e)]
  | arithmetic op l r => .object [("arith", .str op.keyword), ("l", view l), ("r", view r)]
  | negate e => .object [("neg", view e)]
  | member e items => .object [("in", view e), ("items", .array (listView items))]
  | call f arguments => .object [("call", .str f.name), ("args", .array (listView arguments))]

def listView : List BoundExpr → List Json
  | [] => []
  | e :: rest => view e :: listView rest

end

end BoundExpr

def Select.view : Select → Json
  | .all => .str "*"
  | .properties paths => .array (paths.map Json.texts)

def OrderItem.view (item : OrderItem) : Json :=
  .object [("path", Json.texts item.path), ("dir", .str item.direction.name)]

def Json.number (n : Nat) : Json := .int n

namespace QueryOptions

mutual

def view : QueryOptions → Json
  | ⟨filter, orderBy, select, expand, top, skip, count, skipToken⟩ =>
    .object [("filter", Json.orNull Expr.view filter),
      ("orderby", .array (orderBy.map OrderItem.view)),
      ("select", Json.orNull Select.view select), ("expand", .array (expansionViews expand)),
      ("top", Json.orNull Json.number top), ("skip", Json.orNull Json.number skip),
      ("count", .bool count), ("skiptoken", Json.orNull .str skipToken)]

def expansionViews : List Expansion → List Json
  | [] => []
  | (name, options) :: rest =>
    .object [("nav", .str name), ("options", view options)] :: expansionViews rest

end

end QueryOptions

end OData
