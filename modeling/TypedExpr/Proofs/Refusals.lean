import TypedExpr.Source
import TypedExpr.Proofs.Scanning

/-! # What readers refuse

An error of a reader belongs to a token that the reader has looked at: it has the position of the
token. What is known of the tokens of a text is so known of the errors that reading it can stop at.
Each way to put readers together has one lemma, and each rule of the grammar is read off its parts.
-/

namespace TypedExpr

variable {α β : Type}

/-- A refusal has this position. It is not for a text that is no real number: that is left to the
reader of real literals. -/
def RefusedAt (pos : Nat) (x : Except Diagnostic α) : Prop :=
  ∀ e, x = .error e → e.offset = pos ∧ ∀ text, e.problem ≠ .invalidReal text

namespace RefusedAt

variable {pos : Nat}

theorem ok (a : α) : RefusedAt pos (.ok a) := nofun

theorem error {p : Problem} (other : ∀ text, p ≠ .invalidReal text) :
    RefusedAt pos (.error ⟨p, pos⟩ : Except Diagnostic α) := by
  rintro e ⟨⟩
  exact ⟨rfl, other⟩

theorem bind {x : Except Diagnostic α} {f : α → Except Diagnostic β} (hx : RefusedAt pos x)
    (hf : ∀ a, RefusedAt pos (f a)) : RefusedAt pos (x >>= f) := by
  cases x with
  | ok a => exact hf a
  | error e =>
      rintro e' ⟨⟩
      exact hx e rfl

end RefusedAt

/-! ## Operands -/

namespace Operand

variable {pos : Nat} {t : Token} {l r o : Operand} {ty : Ty} {target : Option Operand}
  {name : String} {args : List Operand}

theorem ofInteger_refusedAt : RefusedAt t.pos (ofInteger t) := by
  unfold ofInteger
  split
  · exact .ok _
  · exact .error nofun

theorem ofQuoted_refusedAt : RefusedAt t.pos (ofQuoted t) := by
  simp only [ofQuoted]
  split
  · split
    · exact .ok _
    · exact .error nofun
  · exact .ok _

theorem property_refusedAt : RefusedAt pos (property ty target name pos) := by
  unfold property
  split
  · exact .ok _
  · exact .error nofun

theorem method_refusedAt : RefusedAt pos (method ty target name args pos) := by
  unfold method
  split
  · exact .error nofun
  · exact .error nofun
  · split
    · exact .error nofun
    · split
      · exact .error nofun
      · exact .ok _

theorem aggregate_refusedAt {item : Parameter} :
    RefusedAt pos (o.aggregate item name args pos) := by
  unfold aggregate
  split
  · exact .error nofun
  · split
    · exact .ok _
    · exact .error nofun

theorem index_refusedAt : RefusedAt pos (o.index args pos) := by
  unfold index
  split
  · split
    · split
      · exact .ok _
      · exact .error nofun
    · exact .error nofun
  · split
    · exact .error nofun
    · exact .error nofun
    · exact .ok _

theorem convert_refusedAt : RefusedAt pos (o.convert ty pos) := by
  simp only [convert]
  repeat' split
  all_goals first | exact .ok _ | exact .error nofun

theorem construct_refusedAt : RefusedAt pos (construct ty args pos) := by
  unfold construct
  split
  · exact .ok _
  · exact .error nofun
  · split
    · exact convert_refusedAt
    · exact .error nofun

theorem invoke_refusedAt {f : Lambda} : RefusedAt pos (invoke f args pos) := by
  simp only [invoke]
  split
  · exact .ok _
  · exact .error nofun

theorem conditional_refusedAt : RefusedAt pos (conditional o l r pos) := by
  unfold conditional
  split
  · exact .error nofun
  · split
    · exact .ok _
    · split
      · exact .ok _
      · exact .ok _
      · exact .error nofun
      · exact .error nofun

theorem unary_refusedAt {op : UnaryOp} : RefusedAt t.pos (unary t op o) := by
  unfold unary
  split
  · exact .ok _
  · exact .error nofun

theorem promoteBoth_refusedAt {c : OperatorClass} : RefusedAt t.pos (promoteBoth c t l r) := by
  unfold promoteBoth
  split
  · exact .ok _
  · exact .error nofun

theorem relate_refusedAt {op : BinaryOp} : RefusedAt t.pos (relate t op l r) := by
  simp only [relate, relateReferences, relateEnums]
  repeat' split
  all_goals first | exact promoteBoth_refusedAt | exact .ok _ | exact .error nofun

theorem compared_refusedAt {op : BinaryOp} : RefusedAt t.pos (compared t op l r) := by
  refine relate_refusedAt.bind fun (l, r) => ?_
  dsimp only
  split
  · exact .ok _
  · exact .ok _

theorem binary_refusedAt : RefusedAt t.pos (binary t l r) := by
  unfold binary
  split
  · exact .ok _
  · split
    · exact .error nofun
    · split
      · exact compared_refusedAt
      · exact promoteBoth_refusedAt.bind fun _ => .ok _

end Operand

/-! ## Readers -/

namespace Source

open Reader

/-- What is known of the tokens of a text, and the errors that are to be accounted for by it. -/
structure Blame where
  /-- A token as it is written. -/
  written : Token → Prop
  /-- A token that is looked at: a written one, or a number with the minus before it. -/
  seen : Token → Prop
  allowed : Diagnostic → Prop
  seen_of_written : ∀ t, written t → seen t
  seen_signed : ∀ t number, seen t → t.kind = .minus → written number →
    seen ⟨number.kind, "-" ++ number.text, t.pos⟩
  allowed_at : ∀ t p, seen t → (∀ text, p ≠ .invalidReal text) → allowed ⟨p, t.pos⟩
  allowed_real : ∀ t e, seen t → t.kind = .realLiteral → Operand.ofReal t = .error e → allowed e

namespace Blame

/-- The tokens from here on are as they are known to be, and the error that ends them is allowed. -/
structure Sound (b : Blame) (s : State) : Prop where
  token : b.seen s.token
  rest : ∀ t ∈ s.rest.tokens, b.written t
  atEnd : ∀ t ∈ s.rest.end?, b.written t
  error : ∀ e ∈ s.rest.error?, b.allowed e

/-- From a sound state the reader goes to another one, or stops at an error that is allowed. -/
def Explains (b : Blame) (r : Reader α) : Prop :=
  ∀ s, b.Sound s → match r s with
    | .ok _ s' => b.Sound s'
    | .error e _ => b.allowed e

namespace Explains

variable {b : Blame} {r r' : Reader α} {t : Token}

theorem pure (a : α) : b.Explains (Pure.pure a) := fun _ sound => sound

theorem bind {f : α → Reader β} (hr : b.Explains r) (hf : ∀ a, b.Explains (f a)) :
    b.Explains (r >>= f) := by
  intro s sound
  have first := hr s sound
  simp only [Bind.bind, EStateM.bind]
  cases result : r s with
  | ok a s' =>
      rw [result] at first
      exact hf a s' first
  | error e s' =>
      rw [result] at first
      exact first

theorem ite {c : Prop} [Decidable c] (hr : c → b.Explains r) (hr' : ¬ c → b.Explains r') :
    b.Explains (if c then r else r') := by
  split
  · exact hr ‹_›
  · exact hr' ‹_›

theorem token {f : Token → Reader β} (h : ∀ t, b.seen t → b.Explains (f t)) :
    b.Explains (Reader.token >>= f) := fun s sound => h s.token sound.token s sound

theorem failAt (seen : b.seen t) {p : Problem}
    (other : ∀ text, p ≠ .invalidReal text) :
    b.Explains (Reader.failAt t.pos p : Reader α) := fun _ _ => b.allowed_at t p seen other

theorem fail {p : Problem} (other : ∀ text, p ≠ .invalidReal text) :
    b.Explains (Reader.fail p : Reader α) := .token fun _ seen => .failAt seen other

/-- Nothing is read after a refusal. -/
theorem fail_bind {p : Problem} {f : α → Reader β} (other : ∀ text, p ≠ .invalidReal text) :
    b.Explains (Reader.fail p >>= f) :=
  fun s sound => b.allowed_at s.token p sound.token other

theorem refuses {x : Except Diagnostic α} (h : ∀ e, x = .error e → b.allowed e) :
    b.Explains (check x) := by
  cases x with
  | ok a => exact .pure a
  | error e => exact fun _ _ => h e rfl

theorem check {x : Except Diagnostic α} (seen : b.seen t) (h : RefusedAt t.pos x) :
    b.Explains (Reader.check x) := by
  refine .refuses fun e refused => ?_
  obtain ⟨here, other⟩ := h e refused
  have allowed := b.allowed_at t e.problem seen other
  rwa [← here] at allowed

theorem isAt (kind : TokenKind) : b.Explains (Reader.isAt kind) := .token fun _ _ => .pure _

theorem remaining : b.Explains Reader.remaining := fun _ sound => sound

/-- The token that comes next is a written one. -/
theorem next_written {s : State} (sound : b.Sound s) :
    match Reader.next s with
    | .ok _ s' => b.Sound s' ∧ b.written s'.token
    | .error e _ => b.allowed e := by
  obtain ⟨t, run, cache⟩ := s
  obtain ⟨-, rest, atEnd, error⟩ := sound
  cases run with
  | done pos =>
      have last := atEnd _ rfl
      exact ⟨⟨b.seen_of_written _ last, nofun, atEnd, nofun⟩, last⟩
  | failed e => exact error e rfl
  | token u run =>
      obtain ⟨first, later⟩ := List.forall_mem_cons.mp rest
      exact ⟨⟨b.seen_of_written u first, later, atEnd, error⟩, first⟩

theorem next : b.Explains Reader.next := by
  intro s sound
  have moved := next_written sound
  cases result : Reader.next s with
  | ok u s' =>
      rw [result] at moved
      exact moved.1
  | error e s' =>
      rw [result] at moved
      exact moved

theorem nextToken {f : Token → Reader β} (h : ∀ t, b.written t → b.Explains (f t)) :
    b.Explains (do Reader.next; let t ← Reader.token; f t) := by
  intro s sound
  have moved := next_written sound
  simp only [Bind.bind, EStateM.bind]
  cases result : Reader.next s with
  | ok u s' =>
      rw [result] at moved
      exact h s'.token moved.2 s' moved.1
  | error e s' =>
      rw [result] at moved
      exact moved

theorem expect (kind : TokenKind) {p : Problem}
    (other : ∀ text, p ≠ .invalidReal text) : b.Explains (Reader.expect kind p) :=
  (isAt kind).bind fun _ => .ite (fun _ => .pure _) fun _ => .fail other

theorem skip (kind : TokenKind) {p : Problem}
    (other : ∀ text, p ≠ .invalidReal text) : b.Explains (Reader.skip kind p) :=
  (expect kind other).bind fun _ => next

theorem identifier : b.Explains Reader.identifier :=
  (expect _ (by nofun)).bind fun _ => .token fun _ _ => .pure _

/-- Another token takes the place of the one that is looked at. -/
theorem retoken (seen : b.seen t) :
    b.Explains (modify fun s => { s with token := t } : Reader PUnit) :=
  fun _ sound => { sound with token := seen }

theorem items {item : Reader α} (h : b.Explains item) : b.Explains (Reader.items item) := by
  refine remaining.bind fun n => ?_
  induction n with
  | zero => exact h.bind fun _ => .pure _
  | succ n ih =>
      refine h.bind fun a => (isAt _).bind fun _ => .ite (fun _ => ?_) fun _ => .pure _
      exact next.bind fun _ => ih.bind fun _ => .pure _

theorem recordType (shape : List Property) (seen : b.seen t) :
    b.Explains (Reader.recordType shape t.pos) := by
  intro s sound
  have looked : (get : Reader State) s = .ok s s := rfl
  cases made : s.cache.getOrCreate shape with
  | ok entry =>
      simp only [Reader.recordType, Bind.bind, EStateM.bind, looked, made]
      exact ⟨sound.token, sound.rest, sound.atEnd, sound.error⟩
  | error e =>
      simp only [Reader.recordType, Bind.bind, EStateM.bind, looked, made]
      exact b.allowed_at t _ seen nofun

end Explains

end Blame

end Source
end TypedExpr
