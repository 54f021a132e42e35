import LuaClasses.Types

/-! The operators of expressions, their written form, and the types of their results. -/

namespace LuaClasses

inductive UnaryOp where
  | not
  | neg
  | bitNot
  | len
  deriving DecidableEq, Repr

namespace UnaryOp

def all : List UnaryOp := [.not, .neg, .bitNot, .len]

def token : UnaryOp → String
  | .not => "not"
  | .neg => "-"
  | .bitNot => "~"
  | .len => "#"

def ofToken? (token : String) : Option UnaryOp := all.find? fun op => op.token = token

/-- The word written in data. -/
def tag : UnaryOp → String
  | .not => "not"
  | .neg => "neg"
  | .bitNot => "bit_not"
  | .len => "len"

def ofTag? (tag : String) : Option UnaryOp := all.find? fun op => op.tag = tag

def resultType : UnaryOp → LuaType
  | .not => .boolean
  | .neg | .bitNot | .len => .number

end UnaryOp

inductive BinaryOp where
  | add
  | sub
  | mul
  | div
  | floorDiv
  | mod
  | pow
  | concat
  | eq
  | ne
  | lt
  | le
  | gt
  | ge
  | and
  | or
  | bitAnd
  | bitOr
  | bitXor
  | shl
  | shr
  deriving DecidableEq, Repr

namespace BinaryOp

def all : List BinaryOp :=
  [.add, .sub, .mul, .div, .floorDiv, .mod, .pow, .concat, .eq, .ne, .lt, .le, .gt, .ge, .and, .or,
    .bitAnd, .bitOr, .bitXor, .shl, .shr]

def token : BinaryOp → String
  | .add => "+"
  | .sub => "-"
  | .mul => "*"
  | .div => "/"
  | .floorDiv => "//"
  | .mod => "%"
  | .pow => "^"
  | .concat => ".."
  | .eq => "=="
  | .ne => "~="
  | .lt => "<"
  | .le => "<="
  | .gt => ">"
  | .ge => ">="
  | .and => "and"
  | .or => "or"
  | .bitAnd => "&"
  | .bitOr => "|"
  | .bitXor => "~"
  | .shl => "<<"
  | .shr => ">>"

def ofToken? (token : String) : Option BinaryOp := all.find? fun op => op.token = token

/-- The word written in data. -/
def tag : BinaryOp → String
  | .add => "add"
  | .sub => "sub"
  | .mul => "mul"
  | .div => "div"
  | .floorDiv => "floor_div"
  | .mod => "mod"
  | .pow => "pow"
  | .concat => "concat"
  | .eq => "eq"
  | .ne => "ne"
  | .lt => "lt"
  | .le => "le"
  | .gt => "gt"
  | .ge => "ge"
  | .and => "and"
  | .or => "or"
  | .bitAnd => "bit_and"
  | .bitOr => "bit_or"
  | .bitXor => "bit_xor"
  | .shl => "shl"
  | .shr => "shr"

def ofTag? (tag : String) : Option BinaryOp := all.find? fun op => op.tag = tag

/-- The type of the result where the operator alone decides it. The result of `and` and
`or` is one of the operands. -/
def resultType? : BinaryOp → Option LuaType
  | .concat => some .string
  | .eq | .ne | .lt | .le | .gt | .ge => some .boolean
  | .and | .or => none
  | _ => some .number

end BinaryOp
end LuaClasses
