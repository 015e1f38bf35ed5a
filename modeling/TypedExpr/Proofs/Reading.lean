import TypedExpr.Proofs.ExactOperands
import TypedExpr.Proofs.Words
import TypedExpr.Source

/-! # What a reader makes of words

A reader that succeeds before certain words, with what it returns and where it stops. Each way to
put readers together has one lemma here too, so that the success of a part of the grammar is put
together in the order in which it is written.
-/

namespace TypedExpr.Source

open Token

namespace Reader

variable {α β : Type} {s : State} {c : RecordCache} {w : String} {ws : List String}

/-! ## Success -/

/-- From the state the reader succeeds, with a result and a state behind it that satisfy `P`. -/
def Reaches (r : Reader α) (s : State) (P : α → State → Prop) : Prop :=
  ∃ a s', r s = .ok a s' ∧ P a s'

namespace Reaches

variable {P Q : α → State → Prop} {R : β → State → Prop}

theorem imp {r : Reader α} (h : Reaches r s P) (hPQ : ∀ a s', P a s' → Q a s') : Reaches r s Q := by
  obtain ⟨a, s', ha, hP⟩ := h
  exact ⟨a, s', ha, hPQ a s' hP⟩

theorem pure {a : α} (h : P a s) : Reaches (Pure.pure a) s P := ⟨a, s, rfl, h⟩

theorem bind {r : Reader α} {f : α → Reader β} (hr : Reaches r s P)
    (hf : ∀ a s', P a s' → Reaches (f a) s' R) : Reaches (r >>= f) s R := by
  obtain ⟨a, s', ha, hP⟩ := hr
  obtain ⟨b, s'', hb, hR⟩ := hf a s' hP
  refine ⟨b, s'', ?_, hR⟩
  simp only [Bind.bind, EStateM.bind, ha]
  exact hb

theorem token {f : Token → Reader β} (h : Reaches (f s.token) s R) :
    Reaches (Reader.token >>= f) s R := h

theorem isAt {kind : TokenKind} {f : Bool → Reader β} (h : Reaches (f (s.token.kind == kind)) s R) :
    Reaches (Reader.isAt kind >>= f) s R := h

theorem remaining {f : Nat → Reader β} (h : Reaches (f (s.rest.length + 1)) s R) :
    Reaches (Reader.remaining >>= f) s R := h

theorem check {x : Except Diagnostic α} {a : α} (hx : x = .ok a) (h : P a s) :
    Reaches (Reader.check x) s P := by
  subst hx
  exact .pure h

theorem expect {kind : TokenKind} {p : Problem} {f : Unit → Reader β}
    (h : s.token.kind = kind) (hf : Reaches (f ()) s R) :
    Reaches (Reader.expect kind p >>= f) s R := by
  refine .bind (P := fun _ s' => s' = s) (.isAt ?_) fun _ s' same => same ▸ hf
  rw [h, beq_self_eq_true]
  exact .pure rfl

end Reaches

/-! ## Words ahead -/

/-- The token is the first of the words, or stands at the end where there are none. -/
def Ahead : List String → Token → Prop
  | [], t => t.kind = .endOfText
  | w :: _, t => Writes w t

/-- The words are just what is still to be read, and the record types are those in `c`. -/
structure Faces (c : RecordCache) (ws : List String) (s : State) : Prop where
  cache : s.cache = c
  ahead : Ahead ws s.token
  later : Covers ws.tail s.rest

theorem covers_length {run : TokenRun} (h : Covers ws run) : run.length = ws.length := by
  induction ws generalizing run with
  | nil =>
      cases run with
      | done => rfl
      | _ => exact h.elim
  | cons w ws ih =>
      cases run with
      | token t rest => exact congrArg (· + 1) (ih h.2)
      | _ => exact h.elim

theorem next_covers (h : Covers ws s.rest) :
    Reaches next s fun _ s' => Faces s.cache ws s' := by
  obtain ⟨token, rest, cache⟩ := s
  cases ws with
  | nil =>
      cases rest with
      | done pos => exact ⟨(), _, rfl, rfl, rfl, trivial⟩
      | _ => exact h.elim
  | cons w ws =>
      cases rest with
      | token t rest => exact ⟨(), _, rfl, rfl, h.1, h.2⟩
      | _ => exact h.elim

/-- Behind the first word the others are ahead. -/
theorem Faces.next (h : Faces c (w :: ws) s) : Reaches Reader.next s fun _ s' => Faces c ws s' := by
  obtain ⟨rfl, -, later⟩ := h
  exact next_covers later

theorem Faces.skip {kind : TokenKind} {p : Problem} (h : Faces c (w :: ws) s)
    (hw : kindOf w = kind) : Reaches (Reader.skip kind p) s fun _ s' => Faces c ws s' := by
  obtain ⟨pos, ht⟩ := h.ahead
  exact .expect (by rw [ht, hw]) h.next

end Reader

/-! ## Levels -/

namespace Level

/-- How tightly a level binds. -/
def rank : Level → Nat
  | conditional => 0
  | joined .or => 1
  | joined .and => 2
  | joined .comparison => 3
  | joined .additive => 4
  | joined .multiplicative => 5
  | operand => 6

theorem rank_tighter (p : Precedence) : p.tighter.rank = (joined p).rank + 1 := by
  cases p <;> rfl

/-- Before the token an expression of the level ends. -/
structure StopsAt (level : Level) (t : Token) : Prop where
  noMember : t.kind ≠ .dot ∧ t.kind ≠ .openBracket
  looser : ∀ p ∈ t.precedence?, (joined p).rank < level.rank
  noChoice : level = conditional → t.kind ≠ .question

/-- Before the words an expression of the level ends. -/
def Stops (level : Level) (ws : List String) : Prop := ∀ t, Reader.Ahead ws t → level.StopsAt t

variable {level level' : Level} {w : String} {ws : List String}

theorem Stops.mono (h : level.Stops ws) (tighter : level.rank ≤ level'.rank) : level'.Stops ws := by
  intro t ahead
  obtain ⟨noMember, looser, noChoice⟩ := h t ahead
  refine ⟨noMember, fun p hp => Nat.lt_of_lt_of_le (looser p hp) tighter, ?_⟩
  rintro rfl
  refine noChoice ?_
  cases level with
  | conditional => rfl
  | joined p => cases p <;> cases tighter
  | operand => cases tighter

theorem stops_nil : level.Stops [] := by
  intro t kind
  replace kind : t.kind = .endOfText := kind
  refine ⟨by simp [kind], ?_, by simp [kind]⟩
  intro p hp
  simp [precedence?, isWord, kind] at hp

theorem stops_closing (h : w ∈ [")", ":"]) : level.Stops (w :: ws) := by
  rintro t ⟨pos, rfl⟩
  simp only [List.mem_cons, List.not_mem_nil, or_false] at h
  rcases h with rfl | rfl
  · exact ⟨⟨nofun, nofun⟩, nofun, nofun⟩
  · exact ⟨⟨nofun, nofun⟩, nofun, nofun⟩

theorem stops_question (h : level ≠ conditional) : level.Stops ("?" :: ws) := by
  rintro t ⟨pos, rfl⟩
  exact ⟨⟨nofun, nofun⟩, nofun, fun same => absurd same h⟩

theorem stops_operator {op : BinaryOp} (hw : op.SpelledBy w)
    (looser : (joined op.precedence).rank < level.rank) : level.Stops (w :: ws) := by
  intro t ht
  obtain ⟨binds, -, -⟩ := hw.token ht
  have other : t.kind ≠ .dot ∧ t.kind ≠ .openBracket ∧ t.kind ≠ .question := by
    refine ⟨?_, ?_, ?_⟩ <;> intro kind <;> simp [precedence?, isWord, kind] at binds
  refine ⟨⟨other.1, other.2.1⟩, fun p hp => ?_, fun _ => other.2.2⟩
  cases Option.some.inj (binds.symm.trans hp)
  exact looser

end Level
end TypedExpr.Source
