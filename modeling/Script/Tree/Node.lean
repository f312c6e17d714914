import Script.Tree.Basic

/-! # Nodes

Expressions and statements under one type, for passes that treat a tree as a whole. A conditional is
one construct, whether or not it has an `else`.
-/

namespace Script

inductive NodeVariant where
  | expression
  | function
  | varDecl
  | block
  | conditional
  | whileLoop
  | returnValue
  | binary
  | logical
  | unary
  | grouping
  | literal
  | var
  | assign
  | call
deriving DecidableEq

namespace NodeVariant

def all : List NodeVariant :=
  [expression, function, varDecl, block, conditional, whileLoop, returnValue, binary, logical,
    unary, grouping, literal, var, assign, call]

def name : NodeVariant → String
  | expression => "ExprStmt"
  | function => "FnDeclaration"
  | varDecl => "VarDeclaration"
  | block => "Block"
  | conditional => "If"
  | whileLoop => "While"
  | returnValue => "Return"
  | binary => "Binary"
  | logical => "Logical"
  | unary => "Unary"
  | grouping => "Grouping"
  | literal => "Literal"
  | var => "Variable"
  | assign => "Assign"
  | call => "Call"

def ofName? (name : String) : Option NodeVariant :=
  all.find? fun kind => kind.name = name

end NodeVariant

inductive Node where
  | expr (expr : Expr)
  | stmt (stmt : Stmt)

namespace Node

def variant : Node → NodeVariant
  | expr (.binary ..) => .binary
  | expr (.logical ..) => .logical
  | expr (.unary ..) => .unary
  | expr (.grouping _) => .grouping
  | expr (.literal _) => .literal
  | expr (.var _) => .var
  | expr (.assign ..) => .assign
  | expr (.call ..) => .call
  | stmt (.expression _) => .expression
  | stmt (.function ..) => .function
  | stmt (.varDecl ..) => .varDecl
  | stmt (.block _) => .block
  | stmt (.ifThen ..) => .conditional
  | stmt (.ifThenElse ..) => .conditional
  | stmt (.whileLoop ..) => .whileLoop
  | stmt (.returnValue ..) => .returnValue

/-- What a node holds besides its children, each part after a space. -/
def details : Node → String
  | expr (.binary _ op _) => " " ++ op.text
  | expr (.logical _ op _) => " " ++ op.text
  | expr (.unary op _) => " " ++ op.text
  | expr (.literal .nil) => " Nil"
  | expr (.literal (.bool value)) => " Bool " ++ (Literal.bool value).text
  | expr (.literal (.int value)) => " Int " ++ (Literal.int value).text
  | expr (.literal (.float value)) => " Float " ++ (Literal.float value).text
  | expr (.var name) => " " ++ name.text
  | expr (.assign name _) => " " ++ name.text
  | expr (.call _ args paren) => " " ++ toString args.length ++ " " ++ paren.text
  | stmt (.function name params _) =>
    " " ++ name.text ++ String.join (params.map fun param => " | " ++ param.text)
  | stmt (.varDecl name _) => " " ++ name.text
  | stmt (.returnValue keyword _) => " " ++ keyword.text
  | _ => ""

def label (node : Node) : String :=
  node.variant.name ++ node.details

end Node

end Script
