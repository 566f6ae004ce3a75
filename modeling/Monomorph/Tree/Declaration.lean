import Monomorph.Tree.Expr

/-! Declarations of a source unit: packages with their items, and modules.

Look-ups by name take the first declaration of that name, and report its
position in the body.
-/

set_option autoImplicit false

namespace Monomorph

inductive IntKind where
  | u32 | u64 | i32 | i64
  deriving DecidableEq, Repr

namespace IntKind

def width : IntKind → Nat
  | u32 | i32 => 32
  | u64 | i64 => 64

def isSigned : IntKind → Bool
  | u32 | u64 => false
  | i32 | i64 => true

def text : IntKind → String
  | u32 => "u32"
  | u64 => "u64"
  | i32 => "i32"
  | i64 => "i64"

end IntKind

inductive TypeExpr where
  | logic (width : Option Expr)
  | bit (width : Option Expr)
  | int (kind : IntKind)
  | bool
  | named (name : String)
  | reference (reference : Reference)
  | array (element : TypeExpr) (length : Expr)
  deriving Repr

def TypeExpr.text : TypeExpr → String
  | logic none => "logic"
  | logic (some width) => "logic<" ++ width.text ++ ">"
  | bit none => "bit"
  | bit (some width) => "bit<" ++ width.text ++ ">"
  | int kind => kind.text
  | bool => "bool"
  | named name => name
  | .reference target => target.text
  | array element length => element.text ++ "[" ++ length.text ++ "]"

structure ConstDecl where
  name : String
  type : Option TypeExpr
  value : Expr
  span : Span
  deriving Repr

inductive StructKind where
  | struct | union
  deriving DecidableEq, Repr

structure TypedName where
  name : String
  type : TypeExpr
  deriving Repr

structure EnumVariant where
  name : String
  value : Option Expr
  deriving Repr

inductive Statement where
  | declare (name : String) (type : TypeExpr) (value : Expr)
  | assign (target : String) (value : Expr)
  | returns (value : Expr)
  | branch (condition : Expr) (whenTrue whenFalse : List Statement)
  deriving Repr

structure FunctionDecl where
  name : String
  parameters : List TypedName
  result : Option TypeExpr
  body : List Statement
  deriving Repr

inductive PackageItem where
  | const (decl : ConstDecl)
  | typeDef (name : String) (type : TypeExpr)
  | struct (name : String) (kind : StructKind) (fields : List TypedName)
  | enum (name : String) (base : Option TypeExpr) (variants : List EnumVariant)
  | function (decl : FunctionDecl)
  deriving Repr

namespace PackageItem

def name : PackageItem → String
  | const decl => decl.name
  | typeDef name _ => name
  | struct name _ _ => name
  | enum name _ _ => name
  | function decl => decl.name

def isType : PackageItem → Bool
  | typeDef .. | struct .. | enum .. => true
  | const _ | function _ => false

def const? : PackageItem → Option ConstDecl
  | const decl => some decl
  | _ => none

end PackageItem

/-- What a generic parameter accepts: any constant, or values of a type. -/
inductive ParameterType where
  | const
  | typed (type : TypeExpr)
  deriving Repr

structure GenericParameter where
  name : String
  type : ParameterType
  span : Span
  deriving Repr

structure Package where
  name : String
  parameters : List GenericParameter
  items : List PackageItem
  span : Span
  deriving Repr

inductive ModuleItem where
  | const (decl : ConstDecl)
  | declare (name : String) (type : TypeExpr) (value : Expr)
  | var (name : String) (type : TypeExpr)
  deriving Repr

namespace ModuleItem

def name : ModuleItem → String
  | const decl => decl.name
  | declare name _ _ => name
  | var name _ => name

def const? : ModuleItem → Option ConstDecl
  | const decl => some decl
  | _ => none

end ModuleItem

structure Module where
  name : String
  items : List ModuleItem
  span : Span
  deriving Repr

/-- A constant and its position, the first of that name among the declarations
that are constants. -/
def findConst (name : String) (decls : List (Option ConstDecl)) : Option (Nat × ConstDecl) :=
  decls.zipIdx.findSome? fun
    | (some decl, index) => if decl.name = name then some (index, decl) else none
    | (none, _) => none

namespace Package

def isGeneric (package : Package) : Bool := !package.parameters.isEmpty

def findItem (package : Package) (name : String) : Option (Nat × PackageItem) :=
  package.items.zipIdx.findSome? fun (item, index) =>
    if item.name = name then some (index, item) else none

def declares (package : Package) (name : String) : Bool := (package.findItem name).isSome

def findConst (package : Package) (name : String) : Option (Nat × ConstDecl) :=
  Monomorph.findConst name (package.items.map PackageItem.const?)

end Package

namespace Module

def declares (decl : Module) (name : String) : Bool :=
  decl.items.any (·.name = name)

def findConst (decl : Module) (name : String) : Option (Nat × ConstDecl) :=
  Monomorph.findConst name (decl.items.map ModuleItem.const?)

end Module

inductive Description where
  | package (decl : Package)
  | module (decl : Module)
  deriving Repr

namespace Description

def name : Description → String
  | .package decl => decl.name
  | .module decl => decl.name

def span : Description → Span
  | .package decl => decl.span
  | .module decl => decl.span

def isGeneric : Description → Bool
  | .package decl => decl.isGeneric
  | .module _ => false

end Description

structure SourceUnit where
  name : String
  descriptions : List Description
  deriving Repr

end Monomorph
