import Lisplet.Expr.Basic

namespace Lisplet

-- An expression as it lies in memory. Every part of it is an object, and what is used in several
-- places has the same number in all of them.
inductive Object where
  | symbol (id : Nat) (name : String)
  | number (id : Nat) (n : Number)
  | bool (id : Nat) (b : Bool)
  | str (id : Nat) (text : String)
  | list (id : Nat) (items : List Object)
  | builtin (id : Nat) (p : Primitive)
  | closure (id : Nat) (params : List String) (body : Object) (scope : FrameId)

namespace Object

mutual

-- The expression that an object stands for.
def expr : Object → Expr
  | symbol _ name => .symbol name
  | number _ n => .number n
  | bool _ b => .bool b
  | str _ text => .str text
  | list _ items => .list (exprs items)
  | builtin _ p => .builtin p
  | closure _ params body scope => .closure params body.expr scope

def exprs : List Object → List Expr
  | [] => []
  | item :: rest => item.expr :: exprs rest

end

mutual

-- New objects for an expression and its parts, numbered from here on, and the number after them.
def ofExpr (next : Nat) : Expr → Object × Nat
  | .symbol name => (symbol next name, next + 1)
  | .number n => (number next n, next + 1)
  | .bool b => (bool next b, next + 1)
  | .str text => (str next text, next + 1)
  | .list items =>
    let (objects, after) := ofExprs (next + 1) items
    (list next objects, after)
  | .builtin p => (builtin next p, next + 1)
  | .closure params body scope =>
    let (object, after) := ofExpr (next + 1) body
    (closure next params object scope, after)

def ofExprs (next : Nat) : List Expr → List Object × Nat
  | [] => ([], next)
  | item :: rest =>
    let (object, after) := ofExpr next item
    let (objects, last) := ofExprs after rest
    (object :: objects, last)

end

mutual

-- Whether two objects are one and the same. One object has one number and one content.
def same : Object → Object → Bool
  | symbol i a, symbol j b => i == j && a == b
  | number i m, number j n => i == j && m == n
  | bool i a, bool j b => i == j && a == b
  | str i a, str j b => i == j && a == b
  | list i as, list j bs => i == j && sameItems as bs
  | builtin i p, builtin j q => i == j && p == q
  | closure i params body scope, closure j params' body' scope' =>
    i == j && params == params' && body.same body' && scope == scope'
  | _, _ => false

def sameItems : List Object → List Object → Bool
  | [], [] => true
  | a :: as, b :: bs => a.same b && sameItems as bs
  | _, _ => false

end

mutual

-- Procedures are told apart by what they are, all else by what is in it.
def eq : Object → Object → Bool
  | symbol _ a, symbol _ b => a == b
  | number _ m, number _ n => m.eq n
  | bool _ a, bool _ b => a == b
  | str _ a, str _ b => a == b
  | list _ as, list _ bs => eqItems as bs
  | a, b => a.same b

-- Items are compared only where they are not the same object.
def eqItems : List Object → List Object → Bool
  | [], [] => true
  | a :: as, b :: bs => (a.same b || a.eq b) && eqItems as bs
  | _, _ => false

end

mutual

-- Equal objects hash alike. Each variant mixes in a number of its own, and what differs from all
-- other objects its own one.
def hash : Object → UInt64
  | symbol _ name => mixHash 1 (Hashable.hash name)
  | number id n => mixHash 2 (if n = .float .nan then Hashable.hash id else n.hash)
  | bool _ b => mixHash 3 (Hashable.hash b)
  | str _ text => mixHash 4 (Hashable.hash text)
  | list _ items => mixHash 5 (hashItems items)
  | builtin id _ => mixHash 6 (Hashable.hash id)
  | closure id _ _ _ => mixHash 7 (Hashable.hash id)

def hashItems : List Object → UInt64
  | [] => 11
  | item :: rest => mixHash item.hash (hashItems rest)

end

end Object

end Lisplet
