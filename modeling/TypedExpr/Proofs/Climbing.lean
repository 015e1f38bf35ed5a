import TypedExpr.Proofs.Integer
import TypedExpr.Proofs.Reading

/-! # Reading trees back

What is written as a tree at a level is read as the tree by the reader of that level, whatever
stands behind it that ends the level. Operators of one precedence are read in a loop: before an
operator the loop has read what stands to the left of it, and goes on.
-/

namespace TypedExpr.Source

open Token Reader

variable {c : RecordCache} {e : Expr} {t : Ty} {rest ws : List String} {s : State} {env : Env}

/-- The operand is the tree of a type, and the words are what stands behind it. -/
structure Delivers (e : Expr) (t : Ty) (c : RecordCache) (rest : List String) (o : Operand)
    (s : State) : Prop where
  expr : o.expr = e
  isOf : o.IsOf t
  faces : Faces c rest s

/-- The reader makes the tree of the words, whatever ends the level behind them. -/
def Parses (r : Reader Operand) (level : Level) (e : Expr) (t : Ty) (ws : List String) : Prop :=
  ∀ c rest s, Faces c (ws ++ rest) s → level.Stops rest → Reaches r s (Delivers e t c rest)

/-! ## Primary expressions -/

variable {operand expression : Part} {params : List Parameter}

/-- Behind an operand there are no members. -/
theorem postfixesUpTo_stops {o : Operand} (n : Nat) (faces : Faces c rest s)
    (stops : Level.operand.Stops rest) :
    Reaches (postfixesUpTo expression env n o) s fun o' s' => o' = o ∧ s' = s := by
  obtain ⟨⟨noDot, noBracket⟩, -, -⟩ := stops s.token faces.ahead
  cases n with
  | zero => exact .pure ⟨rfl, rfl⟩
  | succ n =>
      refine .isAt ?_
      rw [beq_false_of_ne noDot]
      refine .isAt ?_
      rw [beq_false_of_ne noBracket]
      exact .pure ⟨rfl, rfl⟩

theorem primary_reaches (stops : Level.operand.Stops rest)
    (h : Reaches (primaryStart expression env) s (Delivers e t c rest)) :
    Reaches (primary expression env) s (Delivers e t c rest) := by
  refine h.bind fun o s' ho => .remaining ?_
  refine (postfixesUpTo_stops _ ho.faces stops).imp ?_
  rintro _ _ ⟨rfl, rfl⟩
  exact ho

theorem unaryOf_primary (none : s.token.unaryOp? = none)
    (h : Reaches (primary expression env) s (Delivers e t c rest)) :
    Reaches (unaryOf operand expression env) s (Delivers e t c rest) := by
  refine .token ?_
  rw [none]
  exact h

/-- A name is read as the parameter that is put under it. -/
theorem parameter_parses {p : Parameter} (name : IsName p.name)
    (sees : env.symbol? p.name = some (.expr (.parameter p))) :
    Parses (unaryOf operand expression env) .operand (.parameter p) p.ty [p.name] := by
  intro c rest s faces stops
  obtain ⟨kind, text, free⟩ := name.token faces.ahead
  refine unaryOf_primary ?_ (primary_reaches stops (.token ?_))
  · simp [unaryOp?, kind, free "not" (by decide)]
  rw [kind]
  refine .token ?_
  rw [free "true" (by decide), free "false" (by decide), free "null" (by decide),
    free "it" (by decide), free "iif" (by decide), free "new" (by decide)]
  simp only [Bool.false_eq_true, if_false, text, name.noType, sees]
  refine .token (.bind (P := fun e s' => e = .parameter p ∧ s' = s) (.pure ⟨rfl, rfl⟩) ?_)
  rintro _ _ ⟨rfl, rfl⟩
  have bare : (Operand.plain (.parameter p)).IsOf p.ty := ⟨rfl, by simp [Operand.plain]⟩
  exact faces.next.bind fun _ s' faces => .pure ⟨rfl, bare, faces⟩

/-- Digits are read as the number that they stand for. -/
theorem integerValue?_digits {n : IntKind.int32.Word} {cs : List Char} {k : Nat}
    (read : Read.nat? cs = some k) (h : n.val = k) :
    Operand.integerValue? cs = some (.integer .int32 n) := by
  obtain ⟨nonempty, digits⟩ := Read.digits_of_nat? read
  obtain ⟨d, ds, rfl⟩ := List.exists_cons_of_ne_nil nonempty
  have unsigned : d ≠ '-' ∧ d ≠ '+' := by
    have digit := digits d (by simp)
    constructor
    · rintro rfl
      exact absurd digit (by decide)
    · rintro rfl
      exact absurd digit (by decide)
  have small : (k : Int) ≤ IntKind.int32.high := h ▸ n.le_high
  have within : Read.intWithin? IntKind.uint64.low IntKind.uint64.high (d :: ds) =
      some (k : Int) := by
    have bound : IntKind.int32.high ≤ IntKind.uint64.high := by decide
    have low : IntKind.uint64.low = 0 := rfl
    have inside : (k : Int) ≤ IntKind.uint64.high := by omega
    simp [Read.intWithin?, Read.int?, unsigned, read, low, inside]
  have word : IntKind.int32.ofInt? k = some n := by
    rw [← h, IntKind.ofInt?_of_holds n.holds, IntKind.wrap_word]
  simp [Operand.integerValue?, unsigned, within, Operand.integerValue?.firstFit, word]

theorem literal_parses {n : IntKind.int32.Word} {digits : String} {k : Nat}
    (read : Read.nat? digits.toList = some k) (h : n.val = k) :
    Parses (unaryOf operand expression env) .operand (.constant (.integer .int32 n) .int32) .int32
      [digits] := by
  intro c rest s faces stops
  have kind := kindOf_number (Read.digits_of_nat? read)
  obtain ⟨pos, ht⟩ := faces.ahead
  rw [kind] at ht
  refine unaryOf_primary (by rw [ht]; rfl) (primary_reaches stops (.token ?_))
  rw [ht]
  have value : Operand.ofInteger ⟨.integerLiteral, digits, pos⟩ =
      .ok (Operand.literal (.integer .int32 n) digits) := by
    simp [Operand.ofInteger, integerValue?_digits read h]
  refine .bind (P := fun o s' => o = Operand.literal (.integer .int32 n) digits ∧ s' = s)
    (.check value ⟨rfl, rfl⟩) ?_
  rintro _ _ ⟨rfl, rfl⟩
  exact faces.next.bind fun _ s' faces => .pure ⟨rfl, ⟨rfl, nofun⟩, faces⟩

theorem parenthesized_parses (h : Parses (expression env) .conditional e t ws) :
    Parses (unaryOf operand expression env) .operand e t ("(" :: (ws ++ [")"])) := by
  intro c rest s faces stops
  obtain ⟨pos, ht⟩ := faces.ahead
  refine unaryOf_primary (by rw [ht]; rfl) (primary_reaches stops (.token ?_))
  rw [ht]
  rw [List.cons_append, List.append_assoc] at faces
  refine faces.next.bind fun _ s' faces => ?_
  refine (h _ _ _ faces (Level.stops_closing (by simp))).bind fun o s' ho => ?_
  exact (ho.faces.skip rfl).bind fun _ s' faces => .pure ⟨ho.expr, ho.isOf, faces⟩

/-! ## Operators on one operand -/

/-- The word is no number, which a minus before it would belong to. -/
def IsNoNumber (w : String) : Prop := ∀ t, Writes w t → isNumber t = false

theorem unary_parses {op : UnaryOp} {w : String} (hw : op.SpelledBy w)
    (offers : (Operand.unaryClass op).Offers 1 t)
    (noNumber : op = .negate → ∃ v ∈ ws.head?, IsNoNumber v)
    (h : Parses (operand env) .operand e t ws) :
    Parses (unaryOf operand expression env) .operand (.unary op e) t (w :: ws) := by
  intro c rest s faces stops
  obtain ⟨unary, minus⟩ := hw.token faces.ahead
  refine .token ?_
  rw [unary]
  refine faces.next.bind fun _ s' faces => .token ?_
  have separate : ¬ (s.token.kind = .minus ∧ isNumber s'.token) := by
    rintro ⟨kind, number⟩
    obtain ⟨v, hv, other⟩ := noNumber (minus kind)
    obtain ⟨vs, rfl⟩ := List.head?_eq_some_iff.mp hv
    rw [other _ faces.ahead] at number
    cases number
  rw [if_neg separate]
  refine (h _ _ _ faces stops).bind fun o s'' ho => ?_
  refine .check (Operand.unary_exact offers ho.isOf) ⟨?_, ⟨?_, nofun⟩, ho.faces⟩
  · rw [Operand.plain, ho.expr]
  · exact ho.isOf.ty

/-- A tree that is no literal does not begin with a number. -/
theorem Spells.isNoNumber (h : Spells .operand e ws) (he : Elementary params e t)
    (notLiteral : e.constant? = none) : ∃ v ∈ ws.head?, IsNoNumber v := by
  cases h with
  | parameter =>
      cases he with
      | parameter _ name _ =>
          refine ⟨_, rfl, fun t ht => ?_⟩
          obtain ⟨kind, -, -⟩ := name.token ht
          simp [isNumber, kind]
  | literal => cases notLiteral
  | parentheses => exact ⟨_, rfl, fun _ ⟨_, ht⟩ => ht ▸ rfl⟩
  | unary hw =>
      refine ⟨_, rfl, fun t ht => ?_⟩
      obtain ⟨unary, -⟩ := hw.token ht
      have kind : t.kind ≠ .integerLiteral ∧ t.kind ≠ .realLiteral := by
        constructor <;> intro kind <;> simp [unaryOp?, isWord, kind] at unary
      simp [isNumber, kind]

/-! ## Operators between two operands -/

variable {p : Precedence} {r : Reader Operand}

theorem joinUpTo_stops {o : Operand} (n : Nat) (faces : Faces c rest s)
    (stops : (Level.joined p).Stops rest) :
    Reaches (joinUpTo p r n o) s fun o' s' => o' = o ∧ s' = s := by
  cases n with
  | zero => exact .pure ⟨rfl, rfl⟩
  | succ n =>
      refine .token ?_
      rw [if_neg]
      · exact .pure ⟨rfl, rfl⟩
      · intro binds
        exact Nat.lt_irrefl _ ((stops s.token faces.ahead).looser p binds)

/-- The loop over operators of a precedence, which reads its operands with `r`, comes to the tree of
the words and goes on behind them. The steps that it has left are enough for all further words. -/
def Leads (p : Precedence) (r : Reader Operand) (e : Expr) (t : Ty) (ws : List String) : Prop :=
  ∀ c rest s, Faces c (ws ++ rest) s → p.tighter.Stops rest →
    ∃ o s' n, joined p r s = joinUpTo p r n o s' ∧ Delivers e t c rest o s' ∧ rest.length ≤ n

/-- Where no operator of the precedence stands behind the words, the loop ends. -/
theorem Leads.parses (h : Leads p r e t ws) : Parses (joined p r) (.joined p) e t ws := by
  intro c rest s faces stops
  have tighter : p.tighter.Stops rest := stops.mono (by rw [Level.rank_tighter]; omega)
  obtain ⟨o, s', n, reads, ho, -⟩ := h c rest s faces tighter
  obtain ⟨_, _, ends, rfl, rfl⟩ := joinUpTo_stops (r := r) (o := o) n ho.faces stops
  exact ⟨_, _, reads.trans ends, ho⟩

/-- The loop begins with one operand. -/
theorem Leads.first (h : Parses r p.tighter e t ws) : Leads p r e t ws := by
  intro c rest s faces stops
  obtain ⟨o, s', reads, ho⟩ := h c rest s faces stops
  refine ⟨o, s', s'.rest.length + 1, ?_, ho, ?_⟩
  · simp only [joined, bind, EStateM.bind, reads]
    rfl
  · rw [covers_length ho.faces.later, List.length_tail]
    omega

/-- An operator and its right operand are one step of the loop. -/
theorem joinUpTo_step {o o' joined : Operand} {s₁ s₂ : State} {n : Nat}
    (binds : s.token.precedence? = some p) (moves : next s = .ok () s₁) (reads : r s₁ = .ok o' s₂)
    (made : Operand.binary s.token o o' = .ok joined) :
    joinUpTo p r (n + 1) o s = joinUpTo p r n joined s₂ := by
  have read : token s = .ok s.token s := rfl
  simp only [joinUpTo, bind, EStateM.bind, read, binds, if_true, moves, reads, made]
  rfl

/-- The loop takes one more operand behind each operator. -/
theorem Leads.binary {op : BinaryOp} {w : String} {left right : Expr} {ls rs : List String} {u : Ty}
    (hw : op.SpelledBy w) (takes : op.Takes u t) (hl : Leads op.precedence r left u ls)
    (hr : Parses r op.precedence.tighter right u rs) :
    Leads op.precedence r (.binary op left right t) t (ls ++ w :: rs) := by
  intro c rest s faces stops
  have before : op.precedence.tighter.Stops (w :: (rs ++ rest)) :=
    Level.stops_operator hw (by rw [Level.rank_tighter]; omega)
  rw [List.append_assoc, List.cons_append] at faces
  obtain ⟨o, s₁, n, reads, ho, steps⟩ := hl c _ s faces before
  obtain ⟨binds, known, single⟩ := hw.token ho.faces.ahead
  obtain ⟨_, s₂, moves, faces⟩ := ho.faces.next
  obtain ⟨o', s₃, follows, ho'⟩ := hr c rest s₂ faces stops
  have made := Operand.binary_exact known single takes ho.isOf ho'.isOf
  rw [List.length_cons, List.length_append] at steps
  obtain ⟨n, rfl⟩ := Nat.exists_eq_add_of_lt steps
  refine ⟨_, s₃, rs.length + rest.length + n,
    reads.trans (joinUpTo_step binds moves follows made), ?_, by omega⟩
  exact ⟨by rw [Operand.plain, ho.expr, ho'.expr], ⟨rfl, nofun⟩, ho'.faces⟩

/-! ## Conditionals -/

theorem expressionOf_joined (h : Parses (binaryOf (operand env)) (.joined .or) e t ws) :
    Parses (expressionOf operand expression env) .conditional e t ws := by
  intro c rest s faces stops
  have joined : (Level.joined .or).Stops rest := stops.mono (by decide)
  refine .token ((h c rest s faces joined).bind fun o s' ho => .isAt ?_)
  rw [beq_false_of_ne ((stops s'.token ho.faces.ahead).noChoice rfl)]
  exact .pure ho

theorem expressionOf_conditional {test a b : Expr} {ts as bs : List String}
    (ht : Parses (binaryOf (operand env)) (.joined .or) test .boolean ts)
    (ha : Parses (expression env) .conditional a t as)
    (hb : Parses (expression env) .conditional b t bs) :
    Parses (expressionOf operand expression env) .conditional (.conditional test a b) t
      (ts ++ "?" :: (as ++ ":" :: bs)) := by
  intro c rest s faces stops
  simp only [List.append_assoc, List.cons_append] at faces
  refine .token ((ht c _ s faces (Level.stops_question nofun)).bind fun o s' ho => .isAt ?_)
  obtain ⟨pos, question⟩ := ho.faces.ahead
  rw [question]
  refine ho.faces.next.bind fun _ s' faces => ?_
  refine (ha c _ s' faces (Level.stops_closing (by simp))).bind fun oa s' hoa => ?_
  refine (hoa.faces.skip rfl).bind fun _ s' faces => ?_
  refine (hb c rest s' faces stops).bind fun ob s' hob => ?_
  have same : oa.ty = ob.ty := hoa.isOf.ty.trans hob.isOf.ty.symm
  refine .check (Operand.conditional_exact ho.isOf.ty same) ⟨?_, ⟨?_, nofun⟩, hob.faces⟩
  · rw [Operand.plain, ho.expr, hoa.expr, hob.expr]
  · exact hoa.isOf.ty

/-! ## Trees -/

/-- The reader of a level, where expressions can be nested so deep. -/
def levelAt (n : Nat) (env : Env) : Level → Reader Operand
  | .conditional => expressionAt n env
  | .joined .or => binaryOf (operandAt n env)
  | .joined .and => joined .and (joined .comparison (joined .additive
    (joined .multiplicative (operandAt n env))))
  | .joined .comparison => joined .comparison (joined .additive
    (joined .multiplicative (operandAt n env)))
  | .joined .additive => joined .additive (joined .multiplicative (operandAt n env))
  | .joined .multiplicative => joined .multiplicative (operandAt n env)
  | .operand => operandAt n env

theorem levelAt_joined (n : Nat) (env : Env) (p : Precedence) :
    levelAt n env (.joined p) = joined p (levelAt n env p.tighter) := by
  cases p <;> rfl

theorem expressionAt_succ (n : Nat) :
    expressionAt (n + 1) = expressionOf (operandAt n) (expressionAt n) := rfl

theorem operandAt_succ (n : Nat) :
    operandAt (n + 1) = unaryOf (operandAt n) (expressionAt (n + 1)) := rfl

theorem operandAt_eq (n : Nat) : ∃ operand, operandAt n = unaryOf operand (expressionAt n) := by
  cases n with
  | zero => exact ⟨tooDeep, rfl⟩
  | succ n => exact ⟨operandAt n, rfl⟩

/-- An expression takes up one level itself, an operand only for its parts. -/
def Level.spare : Level → Nat
  | .conditional => 0
  | .joined _ | .operand => 1

theorem Level.spare_tighter (p : Precedence) : p.tighter.spare = 1 := by cases p <;> rfl

/-- What the reader of a level does at the words of a tree; a loop has not ended yet. -/
def Reads (n : Nat) (env : Env) (e : Expr) (t : Ty) (ws : List String) : Level → Prop
  | .joined p => Leads p (levelAt n env p.tighter) e t ws
  | level => Parses (levelAt n env level) level e t ws

theorem Reads.parses {n : Nat} {level : Level} (h : Reads n env e t ws level) :
    Parses (levelAt n env level) level e t ws := by
  cases level with
  | joined p =>
      rw [levelAt_joined]
      exact Leads.parses h
  | _ => exact h

/-- Each named parameter is known under its name. -/
def Env.Knows (env : Env) (params : List Parameter) : Prop :=
  ∀ p ∈ params, IsName p.name → env.symbol? p.name = some (.expr (.parameter p))

/-- A tree that is written with no more words than levels are left is read as it is. -/
theorem Spells.reads {level : Level} (knows : env.Knows params) (h : Spells level e ws)
    (he : Elementary params e t) (n : Nat) (enough : ws.length ≤ n + level.spare) :
    Reads n env e t ws level := by
  -- whatever takes up a level has a word of its own, and so the parts have enough levels left
  induction h generalizing t n with
  | parameter =>
      obtain ⟨inner, same⟩ := operandAt_eq n
      change Parses (operandAt n env) .operand _ _ _
      rw [same]
      cases he with
      | parameter mem name _ => exact parameter_parses name (knows _ mem name)
  | literal read value =>
      obtain ⟨inner, same⟩ := operandAt_eq n
      change Parses (operandAt n env) .operand _ _ _
      rw [same]
      cases he
      exact literal_parses read value
  | parentheses _ ih =>
      obtain ⟨inner, same⟩ := operandAt_eq n
      change Parses (operandAt n env) .operand _ _ _
      rw [same]
      simp only [List.length_cons, List.length_append, List.length_nil, Level.spare] at enough
      exact parenthesized_parses (ih he n (by simp only [Level.spare]; omega))
  | unary hw inner ih =>
      have some := inner.length_pos
      simp only [List.length_cons, Level.spare] at enough
      obtain ⟨n, rfl⟩ : ∃ m, n = m + 1 := ⟨n - 1, by omega⟩
      change Parses (operandAt (n + 1) env) .operand _ _ _
      rw [operandAt_succ]
      have fewer := Nat.le_of_succ_le_succ enough
      cases he with
      | negate he notLiteral =>
          refine unary_parses hw OperatorClass.negation_offers (fun _ => ?_) (ih he n fewer)
          exact inner.isNoNumber he notLiteral
      | not he => exact unary_parses hw OperatorClass.complement_offers nofun (ih he n fewer)
  | binary hw _ _ ihl ihr =>
      simp only [List.length_append, List.length_cons, Level.spare] at enough
      cases he with
      | binary takes hl hr =>
          have left := ihl hl n (by simp only [Level.spare]; omega)
          have right := ihr hr n (by simp only [Level.spare_tighter]; omega)
          exact .binary hw takes left right.parses
  | conditional _ _ _ iht iha ihb =>
      simp only [List.length_append, List.length_cons, Level.spare] at enough
      obtain ⟨n, rfl⟩ : ∃ m, n = m + 1 := ⟨n - 1, by omega⟩
      change Parses (expressionAt (n + 1) env) .conditional _ _ _
      rw [expressionAt_succ]
      cases he with
      | conditional ht ha hb =>
          have test := iht ht n (by simp only [Level.spare]; omega)
          have whenTrue := iha ha n (by simp only [Level.spare]; omega)
          have whenFalse := ihb hb n (by simp only [Level.spare]; omega)
          exact expressionOf_conditional test.parses whenTrue whenFalse
  | @ofTighter p _ _ _ ih =>
      have operand := ih he n (by rw [Level.spare_tighter]; exact enough)
      exact .first operand.parses
  | ofJoined inner ih =>
      have some := inner.length_pos
      simp only [Level.spare] at enough
      obtain ⟨n, rfl⟩ : ∃ m, n = m + 1 := ⟨n - 1, by omega⟩
      change Parses (expressionAt (n + 1) env) .conditional _ _ _
      rw [expressionAt_succ]
      exact expressionOf_joined (ih he n (by simp only [Level.spare]; omega)).parses

end TypedExpr.Source
