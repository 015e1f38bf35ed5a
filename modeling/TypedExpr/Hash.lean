import TypedExpr.Ty

/-!
# Hash codes

A hash code has 64 bits. Codes of several parts are either mixed one after the other, where their
order matters, or combined by exclusive or, where it does not and equal codes cancel.
-/

namespace TypedExpr

abbrev HashCode := UInt64

namespace HashCode

/-- Stir the bits of one word. -/
def stir (x : UInt64) : UInt64 :=
  let x := (x ^^^ (x >>> 30)) * 0xbf58476d1ce4e5b9
  let x := (x ^^^ (x >>> 27)) * 0x94d049bb133111eb
  x ^^^ (x >>> 31)

def mix (h x : UInt64) : UInt64 := stir (h * 31 + stir (x + 0x9e3779b97f4a7c15))

/-- Mix a list of words, one after the other. -/
def mixAll (h : UInt64) (xs : List UInt64) : UInt64 := xs.foldl mix h

def ofNat (n : Nat) : HashCode :=
  mix (mix 1 (UInt64.ofNat n)) (UInt64.ofNat (n / 2 ^ 64))

def ofInt (n : Int) : HashCode :=
  mix (if n < 0 then 2 else 3) (ofNat n.natAbs)

def ofString (s : String) : HashCode :=
  mix (mixAll 5 (s.toList.map fun c => c.toNat.toUInt64)) (UInt64.ofNat s.length)

def ofPredefined : Predefined → HashCode
  | .object => 0
  | .boolean => 1
  | .char => 2
  | .string => 3
  | .integer .sbyte => 4
  | .integer .byte => 5
  | .integer .int16 => 6
  | .integer .uint16 => 7
  | .integer .int32 => 8
  | .integer .uint32 => 9
  | .integer .int64 => 10
  | .integer .uint64 => 11
  | .single => 12
  | .double => 13
  | .decimal => 14
  | .dateTime => 15
  | .timeSpan => 16
  | .guid => 17
  | .math => 18
  | .convert => 19

mutual

/-- The code of a type. Host types count by name, record types by number. -/
def ofTy : Ty → HashCode
  | .predefined p => mix 20 (ofPredefined p)
  | .nullable t => mix 21 (ofTy t)
  | .enum e => mix 22 (ofString e.name)
  | .record r => mix 23 (ofNat r.id)
  | .cls c => mix 24 (ofString c.name)
  | .sequence t => mix 25 (ofTy t)
  | .array t => mix 26 (ofTy t)
  | .lambda ps r => mix (mix 27 (ofTys ps)) (ofTy r)

def ofTys : List Ty → HashCode
  | [] => 28
  | t :: ts => mix (ofTys ts) (ofTy t)

end

/-- The code of a list of properties: the exclusive or of the codes of their names and types,
whatever their order and whichever name goes with which type. -/
def ofProperties (ps : List Property) : HashCode :=
  ps.foldl (fun h p => h ^^^ (ofString p.name ^^^ ofTy p.ty)) 0

end HashCode
end TypedExpr
