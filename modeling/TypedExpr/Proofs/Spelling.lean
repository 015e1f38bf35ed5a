import TypedExpr.Source

/-! # How elementary expressions are written

Trees over numbers and truth values, and the words and texts that stand for them. A tree has many
spellings: parentheses may stand around every part, most operators have more than one sign or word,
and blanks may stand between all words. Where parentheses must stand follows from the levels of the
grammar: a part is written at the level of its place, or at a tighter one.
-/

namespace TypedExpr

/-! ## Operators -/

namespace BinaryOp

/-- The signs for an operator. -/
def signs : BinaryOp → List String
  | add => ["+"]
  | subtract => ["-"]
  | multiply => ["*"]
  | divide => ["/"]
  | modulo => ["%"]
  | equal => ["=", "=="]
  | notEqual => ["!=", "<>"]
  | less => ["<"]
  | lessEqual => ["<="]
  | greater => [">"]
  | greaterEqual => [">="]
  | and => ["&&"]
  | or => ["||"]

/-- The word for an operator, which may be written in any case. -/
def word? : BinaryOp → Option String
  | modulo => some "mod"
  | and => some "and"
  | or => some "or"
  | _ => none

def isArithmetical : BinaryOp → Bool
  | add | subtract | multiply | divide | modulo => true
  | _ => false

def precedence : BinaryOp → Precedence
  | or => .or
  | and => .and
  | equal | notEqual | less | lessEqual | greater | greaterEqual => .comparison
  | add | subtract => .additive
  | multiply | divide | modulo => .multiplicative

def SpelledBy (op : BinaryOp) (w : String) : Prop :=
  w ∈ op.signs ∨ ∃ word ∈ op.word?, Text.sameIgnoringCase w word

/-- The operator takes two operands of type `s` to a result of type `t`. -/
inductive Takes : BinaryOp → (s t : Ty) → Prop
  | arithmetic {op} (h : op.isArithmetical) : Takes op .int32 .int32
  | comparison {op} (h : op.isComparison) : Takes op .int32 .boolean
  | equality {op} (h : op = .equal ∨ op = .notEqual) : Takes op .boolean .boolean
  | logic {op} (h : op = .and ∨ op = .or) : Takes op .boolean .boolean

end BinaryOp

def UnaryOp.SpelledBy : UnaryOp → String → Prop
  | negate, w => w = "-"
  | not, w => w = "!" ∨ Text.sameIgnoringCase w "not"

namespace Source

/-! ## Trees -/

/-- The words that have a meaning of their own. -/
def reserved : List String :=
  ["true", "false", "null", "it", "iif", "new", "and", "or", "mod", "not"]

/-- Read as one identifier, in full. -/
def IsIdentifier (w : String) : Prop :=
  ∃ c cs, w.toList = c :: cs ∧ Token.opensIdentifier c ∧ ∀ d ∈ cs, Token.continuesIdentifier d

/-- A name that means nothing by itself, and no type. -/
structure IsName (w : String) : Prop where
  identifier : IsIdentifier w
  free : ∀ word ∈ reserved, Text.sameIgnoringCase w word = false
  noType : Predefined.ofName? w = none

/-- Trees over parameters and literals that are numbers of 32 bits or truth values. A negated part
is not a literal: a minus before a literal belongs to it. -/
inductive Elementary (params : List Parameter) : Expr → Ty → Prop
  | parameter {p} (mem : p ∈ params) (name : IsName p.name)
      (type : p.ty = .int32 ∨ p.ty = .boolean) : Elementary params (.parameter p) p.ty
  | literal {n : IntKind.int32.Word} (h : 0 ≤ n.val) :
      Elementary params (.constant (.integer .int32 n) .int32) .int32
  | binary {op s t l r} (hop : op.Takes s t) (hl : Elementary params l s)
      (hr : Elementary params r s) : Elementary params (.binary op l r t) t
  | negate {e} (h : Elementary params e .int32) (notLiteral : e.constant? = none) :
      Elementary params (.unary .negate e) .int32
  | not {e} (h : Elementary params e .boolean) : Elementary params (.unary .not e) .boolean
  | conditional {test a b t} (ht : Elementary params test .boolean) (ha : Elementary params a t)
      (hb : Elementary params b t) : Elementary params (.conditional test a b) t

/-! ## Words -/

/-- The levels of the grammar, the loosest first. -/
inductive Level where
  | conditional
  | joined (p : Precedence)
  | operand

end Source

/-- The level of the right operands at a precedence. -/
def Precedence.tighter : Precedence → Source.Level
  | or => .joined .and
  | and => .joined .comparison
  | comparison => .joined .additive
  | additive => .joined .multiplicative
  | multiplicative => .operand

namespace Source

/-- The words in order that a tree is written with at a level. -/
inductive Spells : Level → Expr → List String → Prop
  | parameter {p} : Spells .operand (.parameter p) [p.name]
  | literal {n : IntKind.int32.Word} {digits : String} {k : Nat}
      (read : Read.nat? digits.toList = some k) (h : n.val = k) :
      Spells .operand (.constant (.integer .int32 n) .int32) [digits]
  | parentheses {e ws} (h : Spells .conditional e ws) :
      Spells .operand e ("(" :: (ws ++ [")"]))
  | unary {op e w ws} (hw : op.SpelledBy w) (h : Spells .operand e ws) :
      Spells .operand (.unary op e) (w :: ws)
  /-- Operators of one precedence go from left to right. -/
  | binary {op l r t w ls rs} (hw : op.SpelledBy w) (hl : Spells (.joined op.precedence) l ls)
      (hr : Spells op.precedence.tighter r rs) :
      Spells (.joined op.precedence) (.binary op l r t) (ls ++ w :: rs)
  | conditional {test a b ts as bs} (ht : Spells (.joined .or) test ts)
      (ha : Spells .conditional a as) (hb : Spells .conditional b bs) :
      Spells .conditional (.conditional test a b) (ts ++ "?" :: (as ++ ":" :: bs))
  | ofTighter {p e ws} (h : Spells p.tighter e ws) : Spells (.joined p) e ws
  | ofJoined {e ws} (h : Spells (.joined .or) e ws) : Spells .conditional e ws

theorem Spells.length_pos {level : Level} {e : Expr} {ws : List String} (h : Spells level e ws) :
    0 < ws.length := by
  induction h with
  | ofTighter _ ih | ofJoined _ ih => exact ih
  | _ =>
      simp only [List.length_append, List.length_cons]
      omega

/-! ## Every tree can be written -/

section Levels

variable {e : Expr} {ws : List String}

/-- What is written at the level of operators stands at the loosest level. -/
theorem Spells.loosen {p : Precedence} (h : Spells (.joined p) e ws) :
    Spells .conditional e ws := by
  cases p with
  | or => exact .ofJoined h
  | and => exact .ofJoined (.ofTighter h)
  | comparison => exact .ofJoined (.ofTighter (.ofTighter h))
  | additive => exact .ofJoined (.ofTighter (.ofTighter (.ofTighter h)))
  | multiplicative => exact .ofJoined (.ofTighter (.ofTighter (.ofTighter (.ofTighter h))))

/-- What is written at the tightest level stands at every level. -/
theorem Spells.ofOperand (h : Spells .operand e ws) (level : Level) : Spells level e ws := by
  have multiplicative : Spells (.joined .multiplicative) e ws := .ofTighter h
  have additive : Spells (.joined .additive) e ws := .ofTighter multiplicative
  have comparison : Spells (.joined .comparison) e ws := .ofTighter additive
  have and : Spells (.joined .and) e ws := .ofTighter comparison
  cases level with
  | conditional => exact multiplicative.loosen
  | joined p => cases p <;> first | assumption | exact .ofTighter and
  | operand => exact h

end Levels

private theorem nat?_concat {cs : List Char} {n : Nat} {c : Char} (h : Read.nat? cs = some n)
    (digit : Text.isDigit c) : Read.nat? (cs ++ [c]) = some (10 * n + (c.toNat - '0'.toNat)) := by
  unfold Read.nat? at h ⊢
  split at h
  · cases h
  · cases h
    simp_all [Read.natOfDigits, List.foldl_append]

/-- Every number has digits. -/
theorem exists_digits (n : Nat) : ∃ cs, Read.nat? cs = some n := by
  have digit : ∀ d < 10, Text.isDigit (Char.ofNat (48 + d)) ∧
      Read.nat? [Char.ofNat (48 + d)] = some d ∧
      (Char.ofNat (48 + d)).toNat - '0'.toNat = d := by decide
  induction n using Nat.strongRecOn with
  | ind n ih =>
      by_cases small : n < 10
      · exact ⟨_, (digit n small).2.1⟩
      · obtain ⟨cs, read⟩ := ih (n / 10) (by omega)
        obtain ⟨isDigit, -, value⟩ := digit (n % 10) (Nat.mod_lt n (by decide))
        refine ⟨_, (nat?_concat read isDigit).trans ?_⟩
        rw [value, Nat.div_add_mod]

/-- Each tree can be written, if need be with parentheses around all its parts. -/
theorem Elementary.exists_spells {params : List Parameter} {e : Expr} {t : Ty}
    (h : Elementary params e t) : ∃ ws, Spells .operand e ws := by
  induction h with
  | parameter => exact ⟨_, .parameter⟩
  | @literal n nonneg =>
      obtain ⟨cs, read⟩ := exists_digits n.val.toNat
      rw [← String.toList_ofList (l := cs)] at read
      exact ⟨_, .literal read (Int.toNat_of_nonneg nonneg).symm⟩
  | @binary op _ _ _ _ _ _ _ ihl ihr =>
      obtain ⟨ls, left⟩ := ihl
      obtain ⟨rs, right⟩ := ihr
      obtain ⟨w, hw⟩ : ∃ w, op.SpelledBy w := by
        cases op <;> exact ⟨_, .inl List.mem_cons_self⟩
      exact ⟨_, .parentheses (Spells.binary hw (left.ofOperand _) (right.ofOperand _)).loosen⟩
  | negate _ _ ih =>
      obtain ⟨ws, inner⟩ := ih
      exact ⟨_, .unary rfl inner⟩
  | not _ ih =>
      obtain ⟨ws, inner⟩ := ih
      exact ⟨_, .unary (.inl rfl) inner⟩
  | conditional _ _ _ iht iha ihb =>
      obtain ⟨ts, test⟩ := iht
      obtain ⟨as, whenTrue⟩ := iha
      obtain ⟨bs, whenFalse⟩ := ihb
      exact ⟨_, .parentheses (.conditional (test.ofOperand _) (whenTrue.ofOperand _)
        (whenFalse.ofOperand _))⟩

/-! ## Texts -/

/-- The word is a name, a word or a number, so that another one right behind it would be taken for
a part of it. -/
def isWordy (w : String) : Bool :=
  w.toList.head?.any fun c => Token.opensIdentifier c || Text.isDigit c

/-- The words one after the other with blanks between them and around. A blank must stand only
where two words would grow together. -/
inductive Layout : List String → List Char → Prop
  | done {blanks} (h : ∀ c ∈ blanks, Text.isWhiteSpace c) : Layout [] blanks
  | word {blanks w ws rest} (h : ∀ c ∈ blanks, Text.isWhiteSpace c)
      (apart : isWordy w → ws.head?.any isWordy → rest.head?.any Text.isWhiteSpace)
      (later : Layout ws rest) : Layout (w :: ws) (blanks ++ (w.toList ++ rest))

/-- Apart by one blank each, words make a text. -/
theorem Layout.exists (ws : List String) : ∃ text, Layout ws text := by
  have blank : ∀ c ∈ [' '], Text.isWhiteSpace c := List.forall_mem_singleton.mpr (by decide)
  have apart : ∃ text, Layout ws ([' '] ++ text) := by
    induction ws with
    | nil => exact ⟨[], .done blank⟩
    | cons w ws ih =>
        obtain ⟨text, later⟩ := ih
        exact ⟨_, .word blank (fun _ _ => rfl) later⟩
  obtain ⟨text, laid⟩ := apart
  exact ⟨_, laid⟩

end Source
end TypedExpr
