import OData.Expr.Text

/-!
# Query options

The system query options of a request, and of each navigation that a request expands.  Their text is
that of pairs of a name and its canonical value, in a fixed order and without the skip token; inside
an expansion the pairs are joined by semicolons.
-/

set_option autoImplicit false

namespace OData

inductive Direction where
  | ascending
  | descending
  deriving DecidableEq, Repr

def Direction.name : Direction → String
  | .ascending => "asc"
  | .descending => "desc"

structure OrderItem where
  path : PropertyPath
  direction : Direction
  deriving DecidableEq

inductive Select where
  | all
  | properties (paths : List PropertyPath)
  deriving DecidableEq

structure QueryOptions where
  filter : Option Expr
  orderBy : List OrderItem
  select : Option Select
  expand : List (String × QueryOptions)
  top : Option Nat
  skip : Option Nat
  count : Bool
  skipToken : Option String

/-- A navigation property to expand, with the options for its entities. -/
abbrev Expansion := String × QueryOptions

namespace QueryOptions

def empty : QueryOptions :=
  { filter := none, orderBy := [], select := none, expand := [], top := none, skip := none,
    count := false, skipToken := none }

instance : Inhabited QueryOptions := ⟨empty⟩

def isEmpty (o : QueryOptions) : Bool :=
  o.filter.isNone && o.orderBy.isEmpty && o.select.isNone && o.expand.isEmpty && o.top.isNone
    && o.skip.isNone && !o.count && o.skipToken.isNone

mutual

/-- How deep expansions nest. -/
def expandDepth : QueryOptions → Nat
  | ⟨_, _, _, expand, _, _, _, _⟩ => depthOfList expand

def depthOfList : List Expansion → Nat
  | [] => 0
  | (_, options) :: rest => max (1 + options.expandDepth) (depthOfList rest)

end

theorem expandDepth_eq (o : QueryOptions) : o.expandDepth = depthOfList o.expand := by
  cases o; rw [expandDepth]

theorem lt_depthOfList_of_mem {items : List Expansion} {item : Expansion}
    (member : item ∈ items) : item.2.expandDepth < depthOfList items := by
  induction items with
  | nil => cases member
  | cons first rest ih =>
    rw [depthOfList]
    rcases List.mem_cons.mp member with rfl | later
    · omega
    · exact Nat.lt_of_lt_of_le (ih later) (Nat.le_max_right _ _)

def sameFilter : Option Expr → Option Expr → Bool
  | none, none => true
  | some e, some e' => e.same e'
  | _, _ => false

mutual

def same : QueryOptions → QueryOptions → Bool
  | ⟨filter, orderBy, select, expand, top, skip, count, skipToken⟩,
    ⟨filter', orderBy', select', expand', top', skip', count', skipToken'⟩ =>
    sameFilter filter filter' && orderBy == orderBy' && select == select'
      && sameLists expand expand' && top == top' && skip == skip' && count == count'
      && skipToken == skipToken'

def sameLists : List Expansion → List Expansion → Bool
  | [], [] => true
  | (name, options) :: rest, (name', options') :: rest' =>
    name == name' && options.same options' && sameLists rest rest'
  | _, _ => false

end

end QueryOptions

/-! ## Text -/

def OrderItem.toText (item : OrderItem) : String :=
  match item.direction with
  | .ascending => item.path.toText
  | .descending => item.path.toText ++ " desc"

def Select.toText : Select → String
  | .all => "*"
  | .properties paths => ",".intercalate (paths.map PropertyPath.toText)

namespace QueryOptions

def pairTexts (pairs : List (String × String)) : String :=
  ";".intercalate (pairs.map fun (name, value) => name ++ "=" ++ value)

def pair? (name : String) (value : Option String) : List (String × String) :=
  match value with
  | some text => [(name, text)]
  | none => []

/-- The pairs, given the texts of the expansions. -/
def pairsWith (o : QueryOptions) (expansions : List String) : List (String × String) :=
  pair? "$filter" (o.filter.map Expr.toText)
    ++ (if o.orderBy.isEmpty then []
        else [("$orderby", ",".intercalate (o.orderBy.map OrderItem.toText))])
    ++ pair? "$select" (o.select.map Select.toText)
    ++ (if o.expand.isEmpty then [] else [("$expand", ",".intercalate expansions)])
    ++ pair? "$top" (o.top.map toString)
    ++ pair? "$skip" (o.skip.map toString)
    ++ (if o.count then [("$count", "true")] else [])

def expansionText (navigation : String) (options : QueryOptions) (text : String) : String :=
  if options.isEmpty then navigation else navigation ++ "(" ++ text ++ ")"

mutual

/-- The options joined by semicolons. -/
def toText : QueryOptions → String
  | ⟨filter, orderBy, select, expand, top, skip, count, skipToken⟩ =>
    pairTexts (pairsWith ⟨filter, orderBy, select, expand, top, skip, count, skipToken⟩
      (expansionTexts expand))

def expansionTexts : List Expansion → List String
  | [] => []
  | (navigation, options) :: rest =>
    expansionText navigation options options.toText :: expansionTexts rest

end

def toPairs (o : QueryOptions) : List (String × String) := o.pairsWith (expansionTexts o.expand)

theorem toText_eq (o : QueryOptions) : o.toText = pairTexts o.toPairs := by
  cases o; rw [toText]; rfl

end QueryOptions

def Expansion.toText (e : Expansion) : String :=
  QueryOptions.expansionText e.1 e.2 e.2.toText

end OData
