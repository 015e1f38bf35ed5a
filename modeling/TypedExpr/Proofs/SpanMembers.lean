import TypedExpr.Proofs.MemberCalls

/-! # Members of spans as expressions

What the grammar makes of the members of spans, and what they evaluate to: a property of an operand,
its text, the constructor that is called with ticks, and the reader of texts.
-/

namespace TypedExpr

namespace Operand

variable {o : Operand} {host : Host} {scope : Scope} {s : TimeSpan}

/-- A property of a span is read from the value of the operand. -/
theorem property_denotes {name name' : String} {t : Ty} {p : SpanPart}
    (h : o.Denotes host scope .timeSpan (.timeSpan s))
    (found : Catalog.property? .timeSpan name false =
      some (Catalog.computed name' t (.timeSpan p))) (pos : Nat) :
    ∃ m, property .timeSpan (some o) name pos = .ok m ∧ m.Denotes host scope t (p.get s) := by
  obtain ⟨m, made, gives⟩ := property_gives h found
  exact ⟨m, made pos, gives.denotes⟩

/-- A span is written by the method that all objects have. -/
theorem toString_denotes (h : o.Denotes host scope .timeSpan (.timeSpan s)) (pos : Nat) :
    ∃ m, method .timeSpan (some o) "ToString" [] pos = .ok m ∧
      m.Denotes host scope .string (.string s.toText) := by
  have written : Gives (method .timeSpan (some o) "ToString" []) host scope .string
      (.ok (.string s.toText)) := method_gives (b := .object .toText) h rfl .nil rfl rfl
  obtain ⟨m, made, gives⟩ := written
  exact ⟨m, made pos, gives.denotes⟩

/-- A text is read as a span by the static method of that type. -/
theorem parse_eval {text : String} (h : o.Denotes host scope .string (.string text)) (pos : Nat) :
    ∃ m, method .timeSpan none "Parse" [o] pos = .ok m ∧ m.ty = .timeSpan ∧
      m.expr.eval host scope = Value.read text .timeSpan := by
  have read : Gives (method .timeSpan none "Parse" [o]) host scope .timeSpan
      (Value.read text .timeSpan) := static_gives (b := .parse) h.alone rfl rfl
  obtain ⟨m, made, gives⟩ := read
  exact ⟨m, made pos, gives.ty_eq, gives.eval_eq⟩

/-- With one argument there is only the constructor from ticks. -/
theorem newSpan_eval {passed : Operand} {n : IntKind.int64.Word}
    (promoted : o.promote? .int64 false = some passed)
    (value : passed.expr.eval host scope = .ok (.integer .int64 n)) (pos : Nat) :
    ∃ m, construct .timeSpan [o] pos = .ok m ∧ m.ty = .timeSpan ∧
      m.expr.eval host scope = (TimeSpanMethod.ofTicks n.val).map .timeSpan := by
  let new := Catalog.onType "TimeSpan" [.int64] .timeSpan (.timeSpan .new)
  have applies : Overload.candidate? [o] new = some ⟨new, [passed]⟩ := by
    simp [Overload.candidate?, Overload.promoteAll?, new, Catalog.onType, Method.ofBuiltin,
      promoted]
  have others : ∀ arity, Overload.candidate? [o] (Catalog.onType "TimeSpan"
      (List.replicate (arity + 2) .int32) .timeSpan (.timeSpan .new)) = none := by
    intro arity
    simp [Overload.candidate?, Overload.promoteAll?, Catalog.onType, Method.ofBuiltin,
      List.replicate_succ]
  have chosen : Overload.resolve () (Catalog.constructors .timeSpan) [o] =
      .found () new [passed] := by
    rw [Overload.resolve, Catalog.constructors, Catalog.timeSpanConstructors,
      List.filterMap_cons_some applies, List.filterMap_cons_none (others 1),
      List.filterMap_cons_none (others 2)]
    rfl
  refine ⟨plain (.new new [passed.expr]), ?_, rfl, ?_⟩
  · rw [construct, chosen]
    rfl
  · have called : Expr.eval host (.new new [passed.expr]) scope =
        TimeSpanMethod.new.call .null [.integer .int64 n] := by
      simp only [Expr.eval, Expr.evalAll, value]
      rfl
    refine called.trans ?_
    rw [TimeSpanMethod.call]
    cases TimeSpanMethod.ofTicks n.val <;> rfl

end Operand
end TypedExpr
