import TypedExpr.Ty.Name

/-!
# Implicit conversions

When a value of one type can stand where another type is asked for. References are passed as
they are when the type asked for is above the given one. Integers go to every kind of integer
that has all their words, and to all kinds of fractions; an enumeration goes to and from its
underlying type only; a type with null never goes to one without.
-/

namespace TypedExpr

mutual

/-- The class is `target`, or derives from it or implements it. -/
def ClassType.derivesFrom : (c target : ClassType) → Bool
  | ⟨i, n, base, interfaces, f, e, ps, fs, ms, cs, xs⟩, target =>
    (⟨i, n, base, interfaces, f, e, ps, fs, ms, cs, xs⟩ : ClassType) = target ||
      baseDerivesFrom base target || anyDerivesFrom interfaces target

def baseDerivesFrom : (base : Option ClassType) → (target : ClassType) → Bool
  | none, _ => false
  | some c, target => c.derivesFrom target

def anyDerivesFrom : (interfaces : List ClassType) → (target : ClassType) → Bool
  | [], _ => false
  | c :: cs, target => c.derivesFrom target || anyDerivesFrom cs target

end

namespace Ty

/-- A value of type `source` can be stored, as it is, where `target` is asked for. Sequences of
references follow their element types. -/
def isAssignableFrom : (target source : Ty) → Bool
  | object, _ => true
  | sequence e, source =>
    sequence e = source ||
      match source with
      | string => e = char
      | _ =>
        match source.elementType? with
        | some e' => e' = e || !e'.isValueType && e.isAssignableFrom e'
        | none => false
  | cls c, source =>
    match source with
    | cls c' => c'.derivesFrom c
    | _ => false
  | target, source => target = source

/-- What numbers of a type are like, null apart. Characters count as fractions. -/
inductive NumericKind where
  | none
  | floating
  | signed
  | unsigned
  deriving DecidableEq, Repr

def NumericKind.name : NumericKind → String
  | none => "None"
  | floating => "Floating"
  | signed => "Signed"
  | unsigned => "Unsigned"

def numericKind (t : Ty) : NumericKind :=
  match t.nonNullable with
  | char | single | double | decimal => .floating
  | integer k => if k.isSigned then .signed else .unsigned
  | _ => .none

/-- The type of numbers, with null or without. -/
def isNumeric (t : Ty) : Bool := t.numericKind != .none

def isSignedIntegral (t : Ty) : Bool := t.numericKind == .signed

/-- Integers without negative ones. -/
def isUnsignedIntegral (t : Ty) : Bool := t.numericKind == .unsigned

/-- The values of a type that is neither nullable nor an enumeration go to another such type. -/
def widensTo : (source target : Ty) → Bool
  | integer k, target =>
    match target with
    | integer k' => k.fits k'
    | single | double | decimal => true
    | _ => false
  | single, target => target = single || target = double
  | source, target => source = target

/-- A value of type `source` converts to `target` without being asked to. -/
def convertsTo (source target : Ty) : Bool :=
  if source = target then true
  else if !target.isValueType then target.isAssignableFrom source
  else if source.isNullable && !target.isNullable then false
  else
    match source.nonNullable, target.nonNullable with
    | enum e, enum e' => e = e'
    -- an enumeration and its numbers go to one another, but not on to wider numbers
    | enum e, t | t, enum e => t = e.underlying
    | s, t => s.widensTo t

/-- Which of two types is the better target for a value of type `source`: `gt` stands for the
first. -/
def compareTargets (source first second : Ty) : Ordering :=
  if first = second then .eq
  else if source = first then .gt
  else if source = second then .lt
  else
    -- the narrower target is better, and of two that are apart the one with a sign
    let there := first.convertsTo second
    let back := second.convertsTo first
    if there && !back then .gt
    else if back && !there then .lt
    else if first.isSignedIntegral && second.isUnsignedIntegral then .gt
    else if second.isSignedIntegral && first.isUnsignedIntegral then .lt
    else .eq

end Ty
end TypedExpr
