import TypedExpr.Source.State

/-! # What a reader can return

A property of the results of a reader, whatever the tokens are and whatever record types there are
before it. Each way to put readers together has one lemma, so that a property of a part of the
grammar is read off its parts in the order in which they are written.
-/

namespace TypedExpr

/-- A record that is made of values has just these values. -/
theorem Record.ofValues_ok {type : RecordType} {values : List Value} {r : Record}
    (h : ofValues type values = .ok r) : r = ⟨type, values⟩ := by
  simp only [ofValues, Bind.bind, Except.bind] at h
  split at h
  · cases h
  · split at h
    · cases h
    · cases h
      rfl

/-- The record type of a shape has just the properties of the shape, whether it is new or not. -/
theorem RecordCache.getOrCreate_properties {c : RecordCache} {shape : List Property}
    {r : RecordType} {c' : RecordCache} (h : c.getOrCreate shape = .ok (r, c')) :
    r.properties = shape := by
  simp only [getOrCreate] at h
  split at h
  · cases h
  · split at h
    · rename_i found
      cases h
      simpa using List.find?_some found
    · split at h
      · cases h
        rfl
      · cases h

namespace Source.Reader

variable {α β : Type}

/-- Every result that the reader can have satisfies `P`. Nothing is said about failures. -/
def Yields (r : Reader α) (P : α → Prop) : Prop := ∀ s a s', r s = .ok a s' → P a

namespace Yields

variable {P Q : α → Prop} {R : β → Prop}

theorem anything (r : Reader α) : Yields r fun _ => True := fun _ _ _ _ => trivial

theorem imp {r : Reader α} (h : Yields r P) (hPQ : ∀ a, P a → Q a) : Yields r Q :=
  fun s a s' ha => hPQ a (h s a s' ha)

theorem pure {a : α} (h : P a) : Yields (Pure.pure a) P := by
  intro s b s' hb
  cases hb
  exact h

theorem bind {r : Reader α} {f : α → Reader β} (hr : Yields r P) (hf : ∀ a, P a → Yields (f a) R) :
    Yields (r >>= f) R := by
  intro s b s' hb
  simp only [Bind.bind, EStateM.bind] at hb
  cases ha : r s with
  | error e t => rw [ha] at hb; cases hb
  | ok a t =>
      rw [ha] at hb
      exact hf a (hr s a t ha) t b s' hb

/-- Of the first part nothing has to be known. -/
theorem after {r : Reader α} {f : α → Reader β} (hf : ∀ a, Yields (f a) R) : Yields (r >>= f) R :=
  bind (anything r) fun a _ => hf a

theorem ite {c : Prop} [Decidable c] {r r' : Reader α} (hr : c → Yields r P)
    (hr' : ¬ c → Yields r' P) : Yields (if c then r else r') P := by
  split
  · exact hr ‹_›
  · exact hr' ‹_›

theorem failAt (pos : Nat) (p : Problem) : Yields (Reader.failAt pos p) P := by
  intro s a s' h
  cases h

theorem fail (p : Problem) : Yields (Reader.fail p) P := after fun _ => failAt _ p

theorem check {x : Except Diagnostic α} (h : ∀ a, x = .ok a → P a) : Yields (Reader.check x) P := by
  cases x with
  | ok a => exact pure (h a rfl)
  | error e => intro s a s' ha; cases ha

end Yields

theorem itemsUpTo_yields {item : Reader α} {P : α → Prop} (h : Yields item P) (n : Nat) :
    Yields (itemsUpTo item n) fun as => ∀ a ∈ as, P a := by
  have single : ∀ a, P a → ∀ b ∈ [a], P b := by
    intro a ha b hb
    cases List.mem_singleton.mp hb
    exact ha
  induction n with
  | zero => exact h.bind fun a ha => .pure (single a ha)
  | succ n ih =>
      refine h.bind fun a ha => .after fun more => ?_
      refine .ite (fun _ => .after fun _ => ?_) fun _ => .pure (single a ha)
      refine ih.bind fun as has => .pure ?_
      intro b hb
      rcases List.mem_cons.mp hb with rfl | hb
      · exact ha
      · exact has b hb

/-- What is read between commas is made of the items. -/
theorem items_yields {item : Reader α} {P : α → Prop} (h : Yields item P) :
    Yields (items item) fun as => ∀ a ∈ as, P a :=
  .after fun n => itemsUpTo_yields h n

theorem recordType_yields (shape : List Property) (pos : Nat) :
    Yields (recordType shape pos) fun r => r.properties = shape := by
  refine .after fun s => ?_
  split
  · rename_i made
    exact .after fun _ => .pure (RecordCache.getOrCreate_properties made)
  · exact .failAt _ _

end Source.Reader
end TypedExpr
