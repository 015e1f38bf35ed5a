import TypedExpr.Proofs.Reader
import TypedExpr.Source.Grammar

/-! # What the grammar derives

The operands that a text can stand for under given meanings of names, without the text: every rule
of the grammar is a way to make an operand of operands. Only an operation on items changes what
names mean, and only by its item. Whatever is read is derivable, so that a property of all that is
read follows by induction over the rules.
-/

namespace TypedExpr.Source

/-- The types that a text can name: predefined ones, and value types among them with null. -/
inductive NamedTy : Ty → Prop where
  | predefined (p : Predefined) : NamedTy (.predefined p)
  | nullable {p : Predefined} (h : (Ty.predefined p).isValueType) :
      NamedTy (.nullable (.predefined p))

def Env.item (env : Env) (element : Ty) : Parameter := ⟨env.nextId, "", element⟩

def Env.within (env : Env) (element : Ty) : Env :=
  { env with receiver := some (env.item element), nextId := env.nextId + 1 }

/-- The operands that the grammar can make. -/
inductive Derives : Env → Operand → Prop where
  | integer {env t o} (h : Operand.ofInteger t = .ok o) : Derives env o
  | real {env t o} (h : Operand.ofReal t = .ok o) : Derives env o
  | quoted {env t o} (h : Operand.ofQuoted t = .ok o) : Derives env o
  | truth {env} (b : Bool) : Derives env (.plain (.constant (.boolean b) .boolean))
  | null {env} : Derives env .nullLiteral
  | receiver {env p} (h : env.receiver = some p) : Derives env (.plain (.parameter p))
  | value {env name v} (h : env.symbol? name = some (.value v)) :
      Derives env (.plain (.constant v v.typeOf))
  | symbol {env name e} (h : env.symbol? name = some (.expr e)) : Derives env (.plain e)
  | invoke {env name l args pos o} (h : env.symbol? name = some (.expr (.lambda l)))
      (hargs : ∀ a ∈ args, Derives env a) (ho : Operand.invoke l args pos = .ok o) :
      Derives env o
  | property {env source name pos o} (hs : Derives env source)
      (ho : Operand.property source.ty (some source) name pos = .ok o) : Derives env o
  | staticProperty {env t name pos o} (ht : NamedTy t)
      (ho : Operand.property t none name pos = .ok o) : Derives env o
  | method {env source args name pos o} (hs : Derives env source)
      (hargs : ∀ a ∈ args, Derives env a)
      (ho : Operand.method source.ty (some source) name args pos = .ok o) : Derives env o
  | staticMethod {env t args name pos o} (ht : NamedTy t) (hargs : ∀ a ∈ args, Derives env a)
      (ho : Operand.method t none name args pos = .ok o) : Derives env o
  | aggregate {env source element args name pos o} (hs : Derives env source)
      (hi : Operand.itemTy? source.ty = some element)
      (hargs : ∀ a ∈ args, Derives (env.within element) a)
      (ho : source.aggregate (env.item element) name args pos = .ok o) : Derives env o
  | index {env target args pos o} (ht : Derives env target) (hargs : ∀ a ∈ args, Derives env a)
      (ho : target.index args pos = .ok o) : Derives env o
  | construct {env t args pos o} (ht : NamedTy t) (hargs : ∀ a ∈ args, Derives env a)
      (ho : Operand.construct t args pos = .ok o) : Derives env o
  | conditional {env test whenTrue whenFalse pos o} (htest : Derives env test)
      (htrue : Derives env whenTrue) (hfalse : Derives env whenFalse)
      (ho : Operand.conditional test whenTrue whenFalse pos = .ok o) : Derives env o
  | unary {env operand t op o} (h : Derives env operand)
      (ho : Operand.unary t op operand = .ok o) : Derives env o
  | binary {env left right t o} (hl : Derives env left) (hr : Derives env right)
      (ho : Operand.binary t left right = .ok o) : Derives env o
  | projection {env r} {fields : List (String × Operand)} (h : ∀ f ∈ fields, Derives env f.2)
      (hr : r.properties = fields.map fun f => ⟨f.1, f.2.ty⟩) :
      Derives env (.plain (.newRecord r (fields.map (·.2.expr))))

/-- A reader of parts returns derivable operands only. -/
def Sound (part : Part) : Prop := ∀ env, (part env).Yields (Derives env)

open Reader

variable {expression operand : Part}

theorem tooDeep_sound : Sound tooDeep := fun _ => .fail _

theorem argumentList_yields {P : Operand → Prop} {r : Reader Operand} (h : r.Yields P) :
    (argumentList r).Yields fun args => ∀ a ∈ args, P a := by
  have rest : ∀ args : List Operand, (∀ a ∈ args, P a) →
      (do skip .closeParen .closeParenOrCommaExpected; return args : Reader _).Yields
        fun args => ∀ a ∈ args, P a :=
    fun args hargs => .after fun _ => .pure hargs
  refine .after fun _ => .after fun empty => ?_
  exact .ite (fun _ => .bind (P := fun args => ∀ a ∈ args, P a) (.pure (by simp)) rest)
    fun _ => (items_yields h).bind rest

/-- What a member belongs to is a derivable operand of its type or the name of a type. -/
inductive Owner (env : Env) : Ty → Option Operand → Prop where
  | operand {o} (h : Derives env o) : Owner env o.ty (some o)
  | type {t} (h : NamedTy t) : Owner env t none

theorem memberAccess_yields {env t target} (he : Sound expression) (ho : Owner env t target) :
    (memberAccess expression env t target).Yields (Derives env) := by
  refine .after fun pos => .after fun name => .after fun _ => .after fun called => .ite ?_ ?_
  · intro _
    refine .check fun o h => ?_
    cases ho with
    | operand hs => exact .property hs h
    | type ht => exact .staticProperty ht h
  · intro _
    split
    · rename_i source element hi
      cases ho with
      | operand hs =>
          exact (argumentList_yields (he (env.within element))).bind fun args hargs =>
            .check fun o h => .aggregate hs hi hargs h
    · refine (argumentList_yields (he env)).bind fun args hargs => .check fun o h => ?_
      cases ho with
      | operand hs => exact .method hs hargs h
      | type ht => exact .staticMethod ht hargs h

theorem elementAccess_yields {env target} (he : Sound expression) (ht : Derives env target) :
    (elementAccess expression env target).Yields (Derives env) :=
  .after fun _ => .after fun _ => (items_yields (he env)).bind fun _ hargs =>
    .after fun _ => .check fun _ h => .index ht hargs h

theorem postfixesUpTo_yields {env} (he : Sound expression) (n : Nat) :
    ∀ {o}, Derives env o → (postfixesUpTo expression env n o).Yields (Derives env) := by
  induction n with
  | zero => exact fun h => .pure h
  | succ n ih =>
      intro o h
      refine .after fun dot => .ite (fun _ => .after fun _ => ?_) fun _ => ?_
      · exact (memberAccess_yields he (.operand h)).bind fun _ => ih
      · refine .after fun bracket => .ite (fun _ => ?_) fun _ => .pure h
        exact (elementAccess_yields he h).bind fun _ => ih

theorem parenthesized_yields {env} (he : Sound expression) :
    (parenthesized expression env).Yields (Derives env) :=
  .after fun _ => (he env).bind fun _ h => .after fun _ => .pure h

theorem iif_yields {env} (he : Sound expression) :
    (iif expression env).Yields (Derives env) := by
  refine .after fun _ => .after fun _ => (argumentList_yields (he env)).bind fun args hargs => ?_
  split
  · exact .check fun o h =>
      .conditional (hargs _ (by simp)) (hargs _ (by simp)) (hargs _ (by simp)) h
  · exact .failAt _ _

/-- A property of a projection shows a derivable operand. -/
theorem projectionItem_yields {env} (he : Sound expression) :
    (projectionItem expression env).Yields fun f => ∃ o, Derives env o ∧ o.expr = f.2 := by
  refine .after fun _ => (he env).bind fun o h => .after fun _ => .ite (fun _ => ?_) fun _ => ?_
  · exact .after fun _ => .after fun _ => .after fun _ => .pure ⟨o, h, rfl⟩
  · split
    · exact .pure ⟨o, h, rfl⟩
    · exact .failAt _ _

/-- The operands that the properties of a projection show, under their names. -/
private theorem fields_operands {env} {fields : List (String × Expr)}
    (h : ∀ f ∈ fields, ∃ o, Derives env o ∧ o.expr = f.2) :
    ∃ parts : List (String × Operand), (∀ f ∈ parts, Derives env f.2) ∧
      fields = parts.map fun f => (f.1, f.2.expr) := by
  induction fields with
  | nil => exact ⟨[], by simp, rfl⟩
  | cons f fields ih =>
      obtain ⟨o, ho, hf⟩ := h f (by simp)
      obtain ⟨parts, hparts, rfl⟩ := ih fun g hg => h g (by simp [hg])
      refine ⟨(f.1, o) :: parts, ?_, by simp [hf]⟩
      intro g hg
      rcases List.mem_cons.mp hg with rfl | hg
      · exact ho
      · exact hparts g hg

theorem projection_yields {env} (he : Sound expression) :
    (projection expression env).Yields (Derives env) := by
  refine .after fun _ => .after fun _ => .after fun _ =>
    (items_yields (projectionItem_yields he)).bind fun fields hfields => .after fun _ =>
    (recordType_yields _ _).bind fun r hr => .pure ?_
  obtain ⟨parts, hparts, rfl⟩ := fields_operands hfields
  simp only [List.map_map, Function.comp_def] at hr ⊢
  exact .projection hparts hr

theorem nullableForm_yields (pos : Nat) (p : Predefined) :
    (typeAccess.nullableForm pos (.predefined p)).Yields NamedTy := by
  refine .ite (fun _ => .bind (.failAt (P := fun _ => False) _ _) fun _ h => h.elim) fun h => ?_
  exact .after fun _ => .pure (.nullable (by simpa using h))

theorem typeAccess_yields {env} (he : Sound expression) (p : Predefined) :
    (typeAccess expression env p).Yields (Derives env) := by
  refine .after fun start => .after fun _ => .after fun marked => ?_
  have rest : ∀ t, NamedTy t → (do
      if ← isAt .openParen then
        let args ← argumentList (expression env)
        check (Operand.construct t args start.pos)
      else
        skip .dot .dotOrOpenParenExpected
        memberAccess expression env t none : Reader Operand).Yields (Derives env) := by
    intro t ht
    refine .after fun _ => .ite (fun _ => ?_) fun _ => .after fun _ => ?_
    · exact (argumentList_yields (he env)).bind fun _ hargs =>
        .check fun _ h => .construct ht hargs h
    · exact memberAccess_yields he (.type ht)
  exact .ite (fun _ => (nullableForm_yields _ p).bind rest)
    fun _ => .bind (.pure (.predefined p)) rest

theorem symbol_yields {env name x} (he : Sound expression) (hx : env.symbol? name = some x) :
    (symbol expression env x).Yields (Derives env) := by
  refine .after fun t => ?_
  cases x with
  | value v =>
      refine .bind (.pure rfl) fun e he => ?_
      subst he
      exact .after fun _ => .pure (.value hx)
  | symbols table => exact .bind (.fail (P := fun _ => False) _) fun _ h => h.elim
  | expr e =>
      refine .bind (.pure (P := fun e' => e' = e) rfl) fun e' same => .after fun _ => ?_
      subst same
      split
      · refine .after fun called => .ite (fun _ => ?_) fun _ => .pure (.symbol hx)
        exact (argumentList_yields (he env)).bind fun _ hargs =>
          .check fun _ h => .invoke hx hargs h
      · exact .pure (.symbol hx)

theorem named_yields {env} (he : Sound expression) :
    (named expression env).Yields (Derives env) := by
  refine .after fun t => .ite (fun _ => .after fun _ => .pure (.truth true)) fun _ => ?_
  refine .ite (fun _ => .after fun _ => .pure (.truth false)) fun _ => ?_
  refine .ite (fun _ => .after fun _ => .pure .null) fun _ => .ite (fun _ => ?_) fun _ => ?_
  · split
    · exact .after fun _ => .pure (.receiver ‹_›)
    · exact .fail _
  refine .ite (fun _ => iif_yields he) fun _ => .ite (fun _ => projection_yields he) fun _ => ?_
  split
  · exact typeAccess_yields he _
  · exact symbol_yields he ‹_›
  · exact memberAccess_yields he (.operand (.receiver ‹_›))
  · exact .fail _

theorem literal_yields {env} {x : Except Diagnostic Operand} (h : ∀ o, x = .ok o → Derives env o) :
    (literal x).Yields (Derives env) :=
  (Yields.check h).bind fun _ ho => .after fun _ => .pure ho

theorem primary_yields {env} (he : Sound expression) :
    (primary expression env).Yields (Derives env) := by
  have start : (primaryStart expression env).Yields (Derives env) := by
    refine .after fun t => ?_
    split
    · exact named_yields he
    · exact literal_yields fun _ => .quoted
    · exact literal_yields fun _ => .integer
    · exact literal_yields fun _ => .real
    · exact parenthesized_yields he
    · exact .fail _
  exact start.bind fun _ h => .after fun n => postfixesUpTo_yields he n h

theorem unaryOf_sound (ho : Sound operand) (he : Sound expression) :
    Sound (unaryOf operand expression) := by
  intro env
  refine .after fun t => ?_
  split
  · exact primary_yields he
  · refine .after fun _ => .after fun number => .ite (fun _ => ?_) fun _ => ?_
    · exact .after fun _ => primary_yields he
    · exact (ho env).bind fun _ h => .check fun _ => .unary h

/-- What a loop over operators has made so far is a left operand for the next one. -/
theorem joinUpTo_yields {P Q : Operand → Prop} {r : Reader Operand} (h : r.Yields Q)
    (step : ∀ {t l r o}, P l → Q r → Operand.binary t l r = .ok o → P o) (level : Precedence)
    (n : Nat) : ∀ {left}, P left → (joinUpTo level r n left).Yields P := by
  induction n with
  | zero => exact fun hl => .pure hl
  | succ n ih =>
      intro left hl
      refine .after fun t => .ite (fun _ => .after fun _ => ?_) fun _ => .pure hl
      exact h.bind fun _ hr => (Yields.check fun _ => step hl hr).bind fun _ => ih

theorem joined_yields {P Q : Operand → Prop} {r : Reader Operand} (h : r.Yields Q)
    (first : ∀ {o}, Q o → P o)
    (step : ∀ {t l r o}, P l → Q r → Operand.binary t l r = .ok o → P o) (level : Precedence) :
    (joined level r).Yields P :=
  h.bind fun _ hl => .after fun n => joinUpTo_yields h step level n (first hl)

theorem expressionOf_sound (ho : Sound operand) (he : Sound expression) :
    Sound (expressionOf operand expression) := by
  intro env
  have level : ∀ {r : Reader Operand} (p : Precedence), r.Yields (Derives env) →
      (joined p r).Yields (Derives env) := fun p h => joined_yields h id .binary p
  have test : (binaryOf (operand env)).Yields (Derives env) :=
    level _ (level _ (level _ (level _ (level _ (ho env)))))
  refine .after fun _ => test.bind fun o h => .after fun _ => .ite (fun _ => ?_) fun _ => .pure h
  refine .after fun _ => (he env).bind fun t ht => .after fun _ => (he env).bind fun f hf => ?_
  exact .check fun _ => .conditional h ht hf

/-- However many levels are left, only derivable operands are read. -/
theorem levels_sound (n : Nat) : Sound (expressionAt n) ∧ Sound (operandAt n) := by
  induction n with
  | zero => exact ⟨tooDeep_sound, unaryOf_sound tooDeep_sound tooDeep_sound⟩
  | succ n ih =>
      have he : Sound (expressionOf (operandAt n) (expressionAt n)) := expressionOf_sound ih.2 ih.1
      exact ⟨he, unaryOf_sound ih.2 he⟩

theorem expressionAt_sound (n : Nat) : Sound (expressionAt n) := (levels_sound n).1

/-- An operand as the expression of a whole text, in the type that is asked for if one is. -/
inductive Finished (o : Operand) : Option Ty → Expr → Prop where
  | asIs : Finished o none o.expr
  | promoted {t o'} (h : o.promote? t true = some o') : Finished o (some t) o'.expr

theorem wholeExpression_yields (resultTy : Option Ty) (env : Env) :
    (wholeExpression resultTy env).Yields fun e => ∃ o, Derives env o ∧ Finished o resultTy e := by
  refine .after fun _ => (expressionAt_sound _ env).bind fun o h => ?_
  have rest : ∀ e, (do expect .endOfText .syntaxError; return e : Reader Expr).Yields (· = e) :=
    fun e => .after fun _ => .pure rfl
  cases resultTy with
  | none =>
      refine .bind (.pure rfl) fun e same => (rest e).imp ?_
      rintro _ rfl
      exact ⟨o, h, same ▸ .asIs⟩
  | some t =>
      simp only
      split
      · rename_i o' ho'
        refine .bind (.pure rfl) fun e same => (rest e).imp ?_
        rintro _ rfl
        exact ⟨o, h, same ▸ .promoted ho'⟩
      · exact .bind (.failAt (P := fun _ => False) _ _) fun _ h => h.elim

end TypedExpr.Source
