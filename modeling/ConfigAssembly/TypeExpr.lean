/-!
# Types of inputs

The type expressions that an input may declare as the target of its conversion. Unions are kept in a
normal form that `TypeExpr.ofUnion` produces: they are flat and free of repeats, a union of one type
is that type, and a union of one type with `null` is an `optional`.
-/

namespace ConfigAssembly

/-- An enumeration by its name and its members, each with its number. -/
structure EnumType where
  name : String
  members : List (String × Int)
  deriving DecidableEq, Repr

/-- The members proper: one whose number came before is another name of the earlier member. -/
def EnumType.canonical (e : EnumType) : List (String × Int) :=
  e.members.foldl (fun ms m => if ms.any (·.2 == m.2) then ms else ms ++ [m]) []

/-- A type that has no parts. -/
inductive BasicType where
  | str
  | int
  | float
  | bool
  | path
  | array
  /-- Every value. -/
  | any
  | null
  | object
  | list
  | tuple
  | dict
  | bytes
  | complex
  /-- The tuple without items. -/
  | emptyTuple
  deriving DecidableEq, Repr, Inhabited

/-- A type expression. -/
inductive TypeExpr where
  | basic (b : BasicType)
  /-- A list of items of one type. -/
  | listOf (item : TypeExpr)
  /-- A tuple of any length with items of one type. -/
  | tupleAll (item : TypeExpr)
  /-- A tuple with an item of each type. -/
  | tupleOf (first : TypeExpr) (rest : List TypeExpr)
  | dictOf (key value : TypeExpr)
  /-- A type or `null`; the flag tells that `null` is written first. -/
  | optional (type : TypeExpr) (nullFirst : Bool)
  /-- Several types, at least two of them other than `null`. -/
  | union (members : List TypeExpr)
  | enum (e : EnumType)
  /-- Instances of a class. -/
  | instanceOf (className : String)
  deriving Inhabited

namespace TypeExpr

/-- The members of a type seen as a union. -/
def members : TypeExpr → List TypeExpr
  | .union ts => ts
  | .optional t nullFirst => if nullFirst then [.basic .null, t] else [t, .basic .null]
  | t => [t]

mutual

/-- Whether two expressions denote the same type; the order of a union does not count. -/
def same : TypeExpr → TypeExpr → Bool
  | .basic a, t => match t with
    | .basic b => a == b
    | _ => false
  | .listOf a, t => match t with
    | .listOf b => same a b
    | _ => false
  | .tupleAll a, t => match t with
    | .tupleAll b => same a b
    | _ => false
  | .tupleOf a as, t => match t with
    | .tupleOf b bs => same a b && sameAll as bs
    | _ => false
  | .dictOf a b, t => match t with
    | .dictOf c d => same a c && same b d
    | _ => false
  | .optional a _, t => match t with
    | .optional b _ => same a b
    | _ => false
  | .union as, t => match t with
    | .union bs => as.length == bs.length && allIn as bs
    | _ => false
  | .enum e, t => match t with
    | .enum e' => e.name == e'.name
    | _ => false
  | .instanceOf c, t => match t with
    | .instanceOf c' => c == c'
    | _ => false

/-- Whether two lists hold the same types in the same order. -/
def sameAll : List TypeExpr → List TypeExpr → Bool
  | [], us => us.isEmpty
  | t :: ts, us => match us with
    | [] => false
    | u :: us => same t u && sameAll ts us

/-- Whether each type of the first list is the same as one of the second. -/
def allIn : List TypeExpr → List TypeExpr → Bool
  | [], _ => true
  | t :: ts, us => us.any (same t) && allIn ts us

end

instance : BEq TypeExpr := ⟨same⟩

/-- The type of the values of any of several types. -/
def ofUnion (ts : List TypeExpr) : TypeExpr :=
  let flat := (ts.flatMap members).foldl (fun us t => if us.any (same t) then us else us ++ [t]) []
  match flat with
  | [t] => t
  | [t, .basic .null] => .optional t false
  | [.basic .null, t] => .optional t true
  | us => .union us

/-- The name of a type in messages. -/
def label : TypeExpr → String
  | .basic b => match b with
    | .str => "str"
    | .int => "int"
    | .float => "float"
    | .bool => "bool"
    | .path => "Path"
    | .array => "ndarray"
    | .any => "Any"
    | .null => "NoneType"
    | .object => "object"
    | .list => "list"
    | .tuple => "tuple"
    | .dict => "dict"
    | .bytes => "bytes"
    | .complex => "complex"
    | .emptyTuple => "Tuple"
  | .listOf _ => "List"
  | .tupleAll _ | .tupleOf _ _ => "Tuple"
  | .dictOf _ _ => "Dict"
  | .optional _ _ => "Optional"
  | .union _ => "Union"
  | .enum e => e.name
  | .instanceOf c => c

end TypeExpr
end ConfigAssembly
