import PathRouting.Regex.Error
import PathRouting.Regex.Node

/-!
# Widths

How many characters an expression can take, from the least to the most. A look-behind must
have one width only.
-/
namespace PathRouting.Regex

/-- The least and the most characters that can be taken; the most may be without bound. -/
structure Width where
  least : Nat
  most : Option Nat
deriving DecidableEq

namespace Width

def zero : Width := ⟨0, some 0⟩

def one : Width := ⟨1, some 1⟩

def append (x y : Width) : Width :=
  ⟨x.least + y.least,
    match x.most, y.most with
    | some a, some b => some (a + b)
    | _, _ => none⟩

def union (x y : Width) : Width :=
  ⟨min x.least y.least,
    match x.most, y.most with
    | some a, some b => some (max a b)
    | _, _ => none⟩

def times (w : Width) (least : Nat) (most : Option Nat) : Width :=
  ⟨w.least * least,
    match w.most, most with
    | some a, some b => some (a * b)
    | some 0, none => some 0
    | none, some 0 => some 0
    | _, _ => none⟩

end Width

def Node.width (groups : List (Option Width)) : Node → Width
  | .empty => .zero
  | .literal _ | .any | .oneOf .. => .one
  | .anchor _ | .look .. => .zero
  | .backreference n => (groups[n - 1]?.join).getD .zero
  | .sequence x y => (x.width groups).append (y.width groups)
  | .choice x y => (x.width groups).union (y.width groups)
  | .group _ body | .scoped _ _ body | .atomic body => body.width groups
  | .conditional _ yes no => (yes.width groups).union (no.width groups)
  | .repetition _ least most body => (body.width groups).times least most

def Style.operationName : Style → String
  | .greedy => "MAX_REPEAT"
  | .lazy => "MIN_REPEAT"
  | .possessive => "POSSESSIVE_REPEAT"

/-- No look-behind may reach further back than this. -/
def lookBehindLimit : Nat := 4294967295

def Width.lookBehindError? (w : Width) : Option Error :=
  if lookBehindLimit < w.least then some .lookBehindTooLong
  else if w.most = some w.least then none
  else some .lookBehindVaries

/-- The first error that shows only when all groups are known: a look-behind of several
widths, or a repetition under the template flag. -/
def Node.lateError? (groups : List (Option Width)) (template : Bool) : Node → Option Error
  | .empty | .literal _ | .any | .oneOf .. | .anchor _ | .backreference _ => none
  | .sequence x y | .choice x y | .conditional _ x y =>
    (x.lateError? groups template).or (y.lateError? groups template)
  | .group _ body | .scoped _ _ body | .atomic body => body.lateError? groups template
  | .look behind _ body =>
    (if behind then (body.width groups).lookBehindError? else none).or
      (body.lateError? groups template)
  | .repetition style _ _ body =>
    if template then some (.templateRepetition style.operationName)
    else body.lateError? groups template

end PathRouting.Regex
