import Mathlib.Data.List.Basic

/-!
The expressions of flight plans: `expr_syntax.ml`, its printer `sprint`, and the
tokens of `expr_lexer.mll`.
-/

namespace Paparazzi.FlightPlan.ExprSyntax

/-- The type `ident`. -/
abbrev Ident := List Char

/-- The double-precision numbers, as far as constants use them: the number of a text of
decimal digits, `decimals` of them behind the point, and what `%f` prints of it, the
value in millionths, or `none` where that is `inf`. -/
structure Doubles (D : Type) where
  ofDigits : (digits decimals : Nat) → D
  millionths : D → Option Nat

inductive BinaryOperator where
  | gt | geq | eq | and | or | plus | minus | mult | div | mod
  deriving DecidableEq, Repr

inductive UnaryOperator where
  | minus | not
  deriving DecidableEq, Repr

/-- The operator as it is written. -/
def BinaryOperator.text : BinaryOperator → List Char
  | gt => ['>']
  | geq => ['>', '=']
  | eq => ['=', '=']
  | and => ['&', '&']
  | or => ['|', '|']
  | plus => ['+']
  | minus => ['-']
  | mult => ['*']
  | div => ['/']
  | mod => ['%']

def UnaryOperator.text : UnaryOperator → List Char
  | minus => ['-']
  | not => ['!']

mutual

/-- The type `expression`; the parser applies a `CallOperator` to one or two arguments. -/
inductive Expression (D : Type) where
  | ident (i : Ident)
  | int (n : Nat)
  | float (x : D)
  | call (i : Ident) (es : Expressions D)
  | unary (o : UnaryOperator) (e : Expression D)
  | binary (o : BinaryOperator) (e₁ e₂ : Expression D)
  | index (i : Ident) (e : Expression D)
  | field (i f : Ident)
  | deref (e : Expression D) (f : Ident)

/-- The arguments of a call, the last one outside. -/
inductive Expressions (D : Type) where
  | none
  | snoc (es : Expressions D) (e : Expression D)

end

variable {D : Type}

def cVarOfIdent (x : Ident) : Ident := ['_', 'v', 'a', 'r', '_'] ++ x

/-- The C name of an identifier that stands alone. -/
def cIdent : Ident → Ident
  | '$' :: x => cVarOfIdent x
  | i => i

/-- The digit of weight `w`. -/
def digitAt (m w : Nat) : Char := Nat.digitChar (m / w % 10)

/-- `sprintf "%f"`. -/
def sprintFloat (F : Doubles D) (x : D) : List Char :=
  match F.millionths x with
  | some m =>
      Nat.toDigits 10 (m / 1000000) ++ ['.', digitAt m 100000, digitAt m 10000, digitAt m 1000,
        digitAt m 100, digitAt m 10, digitAt m 1]
  | none => ['i', 'n', 'f']

/-- What `String.concat ","` puts in front of the next argument. -/
def separator : Expressions D → List Char
  | .none => []
  | .snoc _ _ => [',']

mutual

def sprint (F : Doubles D) : Expression D → List Char
  | .ident i => cIdent i
  | .int n => Nat.toDigits 10 n
  | .float x => sprintFloat F x
  | .binary o e₁ e₂ => '(' :: sprint F e₁ ++ o.text ++ sprint F e₂ ++ [')']
  | .unary o e => o.text ++ '(' :: sprint F e ++ [')']
  | .call i es => i ++ '(' :: sprintArgs F es ++ [')']
  | .index i e => i ++ '[' :: sprint F e ++ [']']
  | .field i f => i ++ '.' :: f
  | .deref e f => '(' :: sprint F e ++ [')', '-', '>'] ++ f

def sprintArgs (F : Doubles D) : Expressions D → List Char
  | .none => []
  | .snoc es e => sprintArgs F es ++ separator es ++ sprint F e

end

mutual

/-- What holds of the identifiers that stand alone, of the other names, of the constants,
and of the binary operators with their right operands. -/
def Expression.All (var name : Ident → Prop) (const : D → Prop)
    (bin : BinaryOperator → Expression D → Prop) : Expression D → Prop
  | .ident i => var i
  | .int _ => True
  | .float x => const x
  | .call i es => name i ∧ es.All var name const bin
  | .unary _ e => e.All var name const bin
  | .binary o e₁ e₂ =>
      bin o e₂ ∧ e₁.All var name const bin ∧ e₂.All var name const bin
  | .index i e => name i ∧ e.All var name const bin
  | .field i f => name i ∧ name f
  | .deref e f => e.All var name const bin ∧ name f

def Expressions.All (var name : Ident → Prop) (const : D → Prop)
    (bin : BinaryOperator → Expression D → Prop) : Expressions D → Prop
  | .none => True
  | .snoc es e => es.All var name const bin ∧ e.All var name const bin

end

mutual

/-- Other expressions in the place of identifiers and constants. -/
def Expression.map (f : Ident → Expression D) (g : D → Expression D) :
    Expression D → Expression D
  | .ident i => f i
  | .int n => .int n
  | .float x => g x
  | .call i es => .call i (es.map f g)
  | .unary o e => .unary o (e.map f g)
  | .binary o e₁ e₂ => .binary o (e₁.map f g) (e₂.map f g)
  | .index i e => .index i (e.map f g)
  | .field i f => .field i f
  | .deref e h => .deref (e.map f g) h

def Expressions.map (f : Ident → Expression D) (g : D → Expression D) :
    Expressions D → Expressions D
  | .none => .none
  | .snoc es e => .snoc (es.map f g) (e.map f g)

end

/-- The tokens of `expr_parser.mly`. The last group has no rule there; `decr` is a token
of C only. -/
inductive Token (D : Type) where
  | int (n : Nat)
  | float (x : D)
  | ident (i : Ident)
  | binary (o : BinaryOperator)
  | not
  | comma | dot | lp | rp | lb | rb | deref
  | semicolon | colon | lc | rc | assign | decr

end Paparazzi.FlightPlan.ExprSyntax
