import TypedExpr.Ty

/-!
# Equality of types

Types are equal when all that their declarations say is equal. Two declarations differ at least in
their number, so that the comparison of two classes or enumerations rarely looks further.
-/

namespace TypedExpr

mutual

def Ty.decEq : (a b : Ty) → Decidable (a = b)
  | .predefined a, .predefined b =>
    if h : a = b then .isTrue (by rw [h]) else .isFalse (by simp [h])
  | .nullable a, .nullable b => match a.decEq b with
    | .isTrue h => .isTrue (by rw [h])
    | .isFalse h => .isFalse (by simp [h])
  | .enum a, .enum b => match a.decEq b with
    | .isTrue h => .isTrue (by rw [h])
    | .isFalse h => .isFalse (by simp [h])
  | .record a, .record b => match a.decEq b with
    | .isTrue h => .isTrue (by rw [h])
    | .isFalse h => .isFalse (by simp [h])
  | .cls a, .cls b => match a.decEq b with
    | .isTrue h => .isTrue (by rw [h])
    | .isFalse h => .isFalse (by simp [h])
  | .sequence a, .sequence b => match a.decEq b with
    | .isTrue h => .isTrue (by rw [h])
    | .isFalse h => .isFalse (by simp [h])
  | .array a, .array b => match a.decEq b with
    | .isTrue h => .isTrue (by rw [h])
    | .isFalse h => .isFalse (by simp [h])
  | .lambda ps r, .lambda qs s => match tyListDecEq ps qs with
    | .isFalse h => .isFalse (by simp [h])
    | .isTrue h => match r.decEq s with
      | .isTrue g => .isTrue (by rw [h, g])
      | .isFalse g => .isFalse (by simp [g])
  | .predefined _, .nullable _ | .predefined _, .enum _ | .predefined _, .record _
  | .predefined _, .cls _ | .predefined _, .sequence _ | .predefined _, .array _
  | .predefined _, .lambda .. => .isFalse (by simp)
  | .nullable _, .predefined _ | .nullable _, .enum _ | .nullable _, .record _
  | .nullable _, .cls _ | .nullable _, .sequence _ | .nullable _, .array _
  | .nullable _, .lambda .. => .isFalse (by simp)
  | .enum _, .predefined _ | .enum _, .nullable _ | .enum _, .record _ | .enum _, .cls _
  | .enum _, .sequence _ | .enum _, .array _ | .enum _, .lambda .. => .isFalse (by simp)
  | .record _, .predefined _ | .record _, .nullable _ | .record _, .enum _ | .record _, .cls _
  | .record _, .sequence _ | .record _, .array _ | .record _, .lambda .. => .isFalse (by simp)
  | .cls _, .predefined _ | .cls _, .nullable _ | .cls _, .enum _ | .cls _, .record _
  | .cls _, .sequence _ | .cls _, .array _ | .cls _, .lambda .. => .isFalse (by simp)
  | .sequence _, .predefined _ | .sequence _, .nullable _ | .sequence _, .enum _
  | .sequence _, .record _ | .sequence _, .cls _ | .sequence _, .array _
  | .sequence _, .lambda .. => .isFalse (by simp)
  | .array _, .predefined _ | .array _, .nullable _ | .array _, .enum _ | .array _, .record _
  | .array _, .cls _ | .array _, .sequence _ | .array _, .lambda .. => .isFalse (by simp)
  | .lambda .., .predefined _ | .lambda .., .nullable _ | .lambda .., .enum _
  | .lambda .., .record _ | .lambda .., .cls _ | .lambda .., .sequence _
  | .lambda .., .array _ => .isFalse (by simp)
termination_by structural a => a

def EnumType.decEq : (a b : EnumType) → Decidable (a = b)
  | ⟨i, n, t, ms⟩, ⟨j, m, u, ns⟩ =>
    if h : i = j ∧ n = m ∧ ms = ns then
      match t.decEq u with
      | .isTrue g => .isTrue (by rw [h.1, h.2.1, h.2.2, g])
      | .isFalse g => .isFalse (by simp [g])
    else .isFalse (by intro e; injection e; simp_all)
termination_by structural a => a

def Property.decEq : (a b : Property) → Decidable (a = b)
  | ⟨n, t⟩, ⟨m, u⟩ =>
    if h : n = m then
      match t.decEq u with
      | .isTrue g => .isTrue (by rw [h, g])
      | .isFalse g => .isFalse (by simp [g])
    else .isFalse (by simp [h])
termination_by structural a => a

def RecordType.decEq : (a b : RecordType) → Decidable (a = b)
  | ⟨i, ps⟩, ⟨j, qs⟩ =>
    if h : i = j then
      match propertiesDecEq ps qs with
      | .isTrue g => .isTrue (by rw [h, g])
      | .isFalse g => .isFalse (by simp [g])
    else .isFalse (by simp [h])
termination_by structural a => a

def Param.decEq : (a b : Param) → Decidable (a = b)
  | ⟨t, o⟩, ⟨u, p⟩ =>
    if h : o = p then
      match t.decEq u with
      | .isTrue g => .isTrue (by rw [h, g])
      | .isFalse g => .isFalse (by simp [g])
    else .isFalse (by simp [h])
termination_by structural a => a

def Method.decEq : (a b : Method) → Decidable (a = b)
  | ⟨n, ps, r, s, x⟩, ⟨m, qs, r', s', y⟩ =>
    if h : n = m ∧ s = s' ∧ x = y then
      match paramsDecEq ps qs with
      | .isFalse g => .isFalse (by simp [g])
      | .isTrue g => match optionDecEq r r' with
        | .isTrue k => .isTrue (by rw [h.1, h.2.1, h.2.2, g, k])
        | .isFalse k => .isFalse (by simp [k])
    else .isFalse (by intro e; injection e; simp_all)
termination_by structural a => a

def ClassType.decEq : (a b : ClassType) → Decidable (a = b)
  | ⟨i, n, b, is, f, e, ps, fs, ms, cs, xs⟩, ⟨j, m, b', is', f', e', ps', fs', ms', cs', xs'⟩ =>
    if h : i = j ∧ n = m ∧ f = f' then
      match optionClassDecEq b b', classesDecEq is is', optionDecEq e e', propertiesDecEq ps ps',
          propertiesDecEq fs fs', methodsDecEq ms ms', methodsDecEq cs cs', methodsDecEq xs xs' with
      | .isTrue h1, .isTrue h2, .isTrue h3, .isTrue h4, .isTrue h5, .isTrue h6, .isTrue h7,
        .isTrue h8 => .isTrue (by rw [h.1, h.2.1, h.2.2, h1, h2, h3, h4, h5, h6, h7, h8])
      | .isFalse g, _, _, _, _, _, _, _ => .isFalse (by simp [g])
      | _, .isFalse g, _, _, _, _, _, _ => .isFalse (by simp [g])
      | _, _, .isFalse g, _, _, _, _, _ => .isFalse (by simp [g])
      | _, _, _, .isFalse g, _, _, _, _ => .isFalse (by simp [g])
      | _, _, _, _, .isFalse g, _, _, _ => .isFalse (by simp [g])
      | _, _, _, _, _, .isFalse g, _, _ => .isFalse (by simp [g])
      | _, _, _, _, _, _, .isFalse g, _ => .isFalse (by simp [g])
      | _, _, _, _, _, _, _, .isFalse g => .isFalse (by simp [g])
    else .isFalse (by intro e; injection e; simp_all)
termination_by structural a => a

def tyListDecEq : (a b : List Ty) → Decidable (a = b)
  | [], [] => .isTrue rfl
  | [], _ :: _ | _ :: _, [] => .isFalse (by simp)
  | a :: as, b :: bs => match a.decEq b with
    | .isFalse h => .isFalse (by simp [h])
    | .isTrue h => match tyListDecEq as bs with
      | .isTrue g => .isTrue (by rw [h, g])
      | .isFalse g => .isFalse (by simp [g])
termination_by structural a => a

def optionDecEq : (a b : Option Ty) → Decidable (a = b)
  | none, none => .isTrue rfl
  | none, some _ | some _, none => .isFalse (by simp)
  | some a, some b => match a.decEq b with
    | .isTrue h => .isTrue (by rw [h])
    | .isFalse h => .isFalse (by simp [h])
termination_by structural a => a

def propertiesDecEq : (a b : List Property) → Decidable (a = b)
  | [], [] => .isTrue rfl
  | [], _ :: _ | _ :: _, [] => .isFalse (by simp)
  | a :: as, b :: bs => match a.decEq b with
    | .isFalse h => .isFalse (by simp [h])
    | .isTrue h => match propertiesDecEq as bs with
      | .isTrue g => .isTrue (by rw [h, g])
      | .isFalse g => .isFalse (by simp [g])
termination_by structural a => a

def paramsDecEq : (a b : List Param) → Decidable (a = b)
  | [], [] => .isTrue rfl
  | [], _ :: _ | _ :: _, [] => .isFalse (by simp)
  | a :: as, b :: bs => match a.decEq b with
    | .isFalse h => .isFalse (by simp [h])
    | .isTrue h => match paramsDecEq as bs with
      | .isTrue g => .isTrue (by rw [h, g])
      | .isFalse g => .isFalse (by simp [g])
termination_by structural a => a

def methodsDecEq : (a b : List Method) → Decidable (a = b)
  | [], [] => .isTrue rfl
  | [], _ :: _ | _ :: _, [] => .isFalse (by simp)
  | a :: as, b :: bs => match a.decEq b with
    | .isFalse h => .isFalse (by simp [h])
    | .isTrue h => match methodsDecEq as bs with
      | .isTrue g => .isTrue (by rw [h, g])
      | .isFalse g => .isFalse (by simp [g])
termination_by structural a => a

def optionClassDecEq : (a b : Option ClassType) → Decidable (a = b)
  | none, none => .isTrue rfl
  | none, some _ | some _, none => .isFalse (by simp)
  | some a, some b => match a.decEq b with
    | .isTrue h => .isTrue (by rw [h])
    | .isFalse h => .isFalse (by simp [h])
termination_by structural a => a

def classesDecEq : (a b : List ClassType) → Decidable (a = b)
  | [], [] => .isTrue rfl
  | [], _ :: _ | _ :: _, [] => .isFalse (by simp)
  | a :: as, b :: bs => match a.decEq b with
    | .isFalse h => .isFalse (by simp [h])
    | .isTrue h => match classesDecEq as bs with
      | .isTrue g => .isTrue (by rw [h, g])
      | .isFalse g => .isFalse (by simp [g])
termination_by structural a => a

end

instance : DecidableEq Ty := Ty.decEq
instance : DecidableEq EnumType := EnumType.decEq
instance : DecidableEq Property := Property.decEq
instance : DecidableEq RecordType := RecordType.decEq
instance : DecidableEq Param := Param.decEq
instance : DecidableEq Method := Method.decEq
instance : DecidableEq ClassType := ClassType.decEq

end TypedExpr
