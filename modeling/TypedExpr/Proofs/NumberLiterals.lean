import TypedExpr.Proofs.IntegerPromotion
import TypedExpr.Proofs.Scanning
import Mathlib.Data.Nat.Digits.Defs

/-! # Number literals

The digits of an integer literal are its value, and its kind is the first one that holds the value.
Every real literal that tokens can be is read as a number, whatever its parts are.
-/

namespace TypedExpr

open Token

/-! ## Integers -/

namespace Read

variable {digits : List Char} {low high n : Int}

/-- The number that digits are in the base ten, the last of them its units. -/
def decimal (digits : List Char) : Nat :=
  Nat.ofDigits 10 (digits.reverse.map fun c => c.toNat - '0'.toNat)

theorem natOfDigits_eq (digits : List Char) : natOfDigits digits = decimal digits := by
  unfold decimal
  induction digits using List.reverseRecOn with
  | nil => rfl
  | append_singleton ds c ih =>
      have last : natOfDigits (ds ++ [c]) = 10 * natOfDigits ds + (c.toNat - '0'.toNat) := by
        simp only [natOfDigits, List.foldl_append, List.foldl_cons, List.foldl_nil]
      rw [last, ih, List.reverse_concat, List.map_cons, Nat.ofDigits_cons, Nat.add_comm]

theorem nat?_digits (h : IsDigits digits) : nat? digits = some (decimal digits) := by
  have all : digits.all Text.isDigit := List.all_eq_true.mpr h.2
  simp [nat?, h.1, all, natOfDigits_eq]

theorem int?_digits (h : IsDigits digits) : int? digits = some (decimal digits : Int) := by
  have value := nat?_digits h
  obtain ⟨d, ds, rfl, digit, -⟩ := h.exists_cons
  obtain ⟨-, -, -, plus, minus⟩ := digit_plain digit
  simp [int?, plus, minus, value]

theorem int?_negative (h : IsDigits digits) :
    int? ('-' :: digits) = some (-(decimal digits : Int)) := by
  simp [int?, nat?_digits h]

end Read

/-- The kind is the first of the list that holds the integer. -/
def IntKind.FirstOf (kinds : List IntKind) (n : Int) (k : IntKind) : Prop :=
  ∃ before after, kinds = before ++ k :: after ∧ k.Holds n ∧ ∀ j ∈ before, ¬ j.Holds n

namespace Operand

variable {digits cs : List Char} {n low high : Int} {kinds : List IntKind} {v : Value}

/-- The value has the first of the kinds that holds the integer. -/
theorem firstFit_first (h : integerValue?.firstFit n kinds = some v) :
    ∃ k, IntKind.FirstOf kinds n k ∧ ∃ w : k.Word, w.val = n ∧ v = .integer k w := by
  obtain ⟨before, k, after, rfl, word, others⟩ := List.findSome?_eq_some_iff.mp h
  obtain ⟨w, made, rfl⟩ := Option.map_eq_some_iff.mp word
  obtain rfl := IntKind.val_of_ofInt? made
  refine ⟨k, ⟨before, after, rfl, w.holds, fun j hj holds => ?_⟩, w, rfl, rfl⟩
  have none := others j hj
  simp [IntKind.ofInt?_of_holds holds] at none

theorem firstFit_eq_none_iff :
    integerValue?.firstFit n kinds = none ↔ ∀ k ∈ kinds, ¬ k.Holds n := by
  simp only [integerValue?.firstFit, List.findSome?_eq_none_iff, Option.map_eq_none_iff]
  refine forall₂_congr fun k _ => ⟨fun none holds => ?_, IntKind.ofInt?_of_not_holds⟩
  rw [IntKind.ofInt?_of_holds holds] at none
  cases none

/-- The bounds at which a text is read leave nothing out that a kind within them holds. -/
theorem firstFit_within (read : Read.int? cs = some n) (sign : cs.head? = some '-' → low < 0)
    (within : ∀ k ∈ kinds, k.Holds n → low ≤ n ∧ n ≤ high) :
    ((Read.intWithin? low high cs).bind fun n => integerValue?.firstFit n kinds) =
      integerValue?.firstFit n kinds := by
  by_cases inside : low ≤ n ∧ n ≤ high
  · rw [Read.intWithin?_iff.mpr ⟨read, inside.1, inside.2, sign⟩]
    rfl
  · have refused : Read.intWithin? low high cs = none := by
      rw [Option.eq_none_iff_forall_ne_some]
      intro m word
      obtain ⟨same, above, below, -⟩ := Read.intWithin?_iff.mp word
      cases read.symm.trans same
      exact inside ⟨above, below⟩
    rw [refused, Option.bind_none, eq_comm, firstFit_eq_none_iff]
    exact fun k hk holds => inside (within k hk holds)

theorem integerValue?_unsigned (h : IsDigits digits) :
    integerValue? digits = integerValue?.firstFit (Read.decimal digits) literalKinds := by
  have unsigned : digits.head? ≠ some '-' := by
    obtain ⟨d, ds, rfl, digit, -⟩ := h.exists_cons
    simpa using (digit_plain digit).2.2.2.2
  have within : ∀ k ∈ literalKinds, k.Holds (Read.decimal digits) →
      IntKind.uint64.low ≤ Read.decimal digits ∧
        (Read.decimal digits : Int) ≤ IntKind.uint64.high := by
    intro k hk holds
    have high : ∀ k ∈ literalKinds, k.high ≤ IntKind.uint64.high := by decide
    exact ⟨Int.natCast_nonneg _, holds.2.trans (high k hk)⟩
  rw [← firstFit_within (Read.int?_digits h) (fun minus => absurd minus unsigned) within]
  unfold integerValue?
  split
  · simp at unsigned
  · rfl

theorem integerValue?_negative (h : IsDigits digits) :
    integerValue? ('-' :: digits) =
      integerValue?.firstFit (-(Read.decimal digits : Int)) [.int32, .int64] := by
  refine firstFit_within (Read.int?_negative h) (fun _ => by decide) fun k hk holds => ?_
  have bounds : ∀ k ∈ [IntKind.int32, .int64],
      IntKind.int64.low ≤ k.low ∧ k.high ≤ IntKind.int64.high := by decide
  obtain ⟨lower, upper⟩ := bounds k hk
  exact ⟨lower.trans holds.1, holds.2.trans upper⟩

end Operand

/-! ## Real numbers -/

namespace Read

/-- Nothing but digits, perhaps none. -/
def Digits (cs : List Char) : Prop := ∀ c ∈ cs, Text.isDigit c

/-- A point with any number of digits behind it, or nothing. -/
inductive OpenFraction : List Char → Prop where
  | absent : OpenFraction []
  | present {digits} (h : Digits digits) : OpenFraction ('.' :: digits)

/-- What stands before the point has some form; a fraction and an exponent can follow. There is at
least one digit before the exponent. -/
inductive Magnitude (Whole : List Char → Prop) : List Char → Prop where
  | parts {whole fraction exponent} (hw : Whole whole) (hf : OpenFraction fraction)
      (he : Exponent exponent) (some : ∃ c ∈ whole ++ fraction, Text.isDigit c) :
      Magnitude Whole (whole ++ (fraction ++ exponent))

variable {cs whole fraction exponent digits sign rest : List Char}

theorem dropWhile_exact {p : Char → Bool} (all : ∀ d ∈ digits, p d) (ends : Breaks p rest) :
    (digits ++ rest).dropWhile p = rest := by
  have both := List.takeWhile_append_dropWhile (p := p) (l := digits ++ rest)
  rwa [takeWhile_exact all ends, List.append_cancel_left_eq] at both

theorem signed_digits (h : IsDigits digits) (rest : List Char) :
    signed (digits ++ rest) = (false, digits ++ rest) := by
  obtain ⟨d, ds, rfl, digit, -⟩ := h.exists_cons
  obtain ⟨-, -, -, plus, minus⟩ := digit_plain digit
  simp [signed, plus, minus]

theorem exponent?_digits (h : IsDigits digits) (hs : sign ∈ [[], ['+'], ['-']]) :
    ∃ n, exponent? (sign ++ digits) = some n := by
  have unsigned := signed_digits h []
  rw [List.append_nil] at unsigned
  have value := nat?_digits h
  simp only [List.mem_cons, List.not_mem_nil, or_false] at hs
  rcases hs with rfl | rfl | rfl
  · exact ⟨decimal digits, by simp [exponent?, unsigned, value]⟩
  · exact ⟨decimal digits, by simp [exponent?, signed, value]⟩
  · exact ⟨-decimal digits, by simp [exponent?, signed, value]⟩

/-- An exponent opens with its mark, and what follows the mark is read. -/
theorem exists_exponent (he : Exponent exponent) : exponent = [] ∨
    ∃ e tail n, exponent = e :: tail ∧ (e = 'e' ∨ e = 'E') ∧ exponent? tail = some n := by
  cases he with
  | absent => exact .inl rfl
  | present hm h =>
      refine .inr ?_
      cases hm with
      | @unsigned e he =>
          have mark : ([] : List Char) ∈ [[], ['+'], ['-']] := by simp
          obtain ⟨n, read⟩ := exponent?_digits h mark
          exact ⟨e, _, n, rfl, by simpa using he, read⟩
      | @signed e s he hs =>
          have mark : [s] ∈ [[], ['+'], ['-']] := by simpa using hs
          obtain ⟨n, read⟩ := exponent?_digits h mark
          exact ⟨e, _, n, rfl, by simpa using he, read⟩

/-- What ends the digits before an exponent. -/
theorem Exponent.breaks (he : Exponent exponent) : Breaks Text.isDigit exponent := by
  rcases exists_exponent he with rfl | ⟨e, tail, n, rfl, rfl | rfl, -⟩
  · exact breaks_nil
  · exact breaks_cons.mpr rfl
  · exact breaks_cons.mpr rfl

theorem OpenFraction.breaks (hf : OpenFraction fraction) (he : Exponent exponent) :
    Breaks Text.isDigit (fraction ++ exponent) := by
  cases hf with
  | absent => exact Exponent.breaks he
  | present => exact breaks_cons.mpr rfl

/-- A number is a coefficient and a power of ten. -/
theorem exists_scientific (hm : Magnitude Digits cs) : ∃ n, scientific? cs = some n := by
  obtain @⟨whole, fraction, exponent, hw, hf, he, c, hc, digit⟩ := hm
  have noPoint : ∀ e : Char, e = 'e' ∨ e = 'E' → e ≠ '.' := by
    rintro e (rfl | rfl) <;> decide
  simp only [scientific?, takeWhile_exact hw (hf.breaks he), dropWhile_exact hw (hf.breaks he)]
  cases hf with
  | absent =>
      have nonempty : whole ≠ [] := List.ne_nil_of_mem (by simpa using hc)
      rcases exists_exponent he with rfl | ⟨e, tail, n, rfl, mark, read⟩
      · simp [nonempty]
      · simp [nonempty, noPoint e mark, mark, read]
  | @present digits hd =>
      have nonempty : ¬ (whole = [] ∧ digits = []) := by
        rintro ⟨rfl, rfl⟩
        rw [List.mem_singleton.mp hc] at digit
        cases digit
      simp only [List.cons_append, takeWhile_exact hd (Exponent.breaks he),
        dropWhile_exact hd (Exponent.breaks he)]
      rcases exists_exponent he with rfl | ⟨e, tail, n, rfl, mark, read⟩
      · simp [nonempty]
      · simp [nonempty, mark, read]

theorem magnitude_of_parts (hw : IsDigits whole) (hf : Fraction fraction) (he : Exponent exponent) :
    Magnitude Digits (whole ++ (fraction ++ exponent)) := by
  have open' : OpenFraction fraction := by
    cases hf with
    | absent => exact .absent
    | present h => exact .present h.2
  obtain ⟨d, ds, rfl, digit, -⟩ := hw.exists_cons
  exact .parts hw.2 open' he ⟨d, by simp, digit⟩

theorem binary?_number (f : BinaryFormat) (hs : sign ∈ [[], ['-']]) (hw : IsDigits whole)
    (hf : Fraction fraction) (he : Exponent exponent) :
    ∃ bits, binary? f (sign ++ (whole ++ (fraction ++ exponent))) = some bits := by
  obtain ⟨n, read⟩ := exists_scientific (magnitude_of_parts hw hf he)
  simp only [List.mem_cons, List.not_mem_nil, or_false] at hs
  rcases hs with rfl | rfl
  · rw [List.nil_append, binary?, signed_digits hw]
    simp only [read]
    exact ⟨_, rfl⟩
  · rw [binary?]
    simp only [List.cons_append, List.nil_append, signed, read]
    exact ⟨_, rfl⟩

/-- The last character of a number without a suffix is a digit. -/
theorem number_ends (hw : IsDigits whole) (hf : Fraction fraction) (he : Exponent exponent) :
    ∃ front digits, whole ++ (fraction ++ exponent) = front ++ digits ∧ IsDigits digits := by
  cases he with
  | @present mark digits hm h =>
      exact ⟨whole ++ (fraction ++ mark), digits, by simp, h⟩
  | absent =>
      cases hf with
      | absent => exact ⟨[], whole, by simp, hw⟩
      | @present digits h => exact ⟨whole ++ ['.'], digits, by simp, h⟩

end Read

namespace Operand

/-- What the text of a real literal is read as: a single where it ends with the suffix, and else a
double. -/
inductive IsReal (text : List Char) : Expr → Prop where
  | single {digits f x} (suffix : f ∈ ['f', 'F']) (same : text = digits ++ [f])
      (read : Read.float32? digits = some x) : IsReal text (.constant (.single x) .single)
  | double {x} (plain : ∀ d ∈ text.getLast?, d ∉ ['f', 'F'])
      (read : Read.float? text = some x) : IsReal text (.constant (.double x) .double)

variable {t : Token} {sign word rest : List Char}

/-- A real literal is read, with a minus before it or without. -/
theorem ofReal_lexeme (hs : sign ∈ [[], ['-']]) (lexeme : Lexeme .realLiteral word rest)
    (text : t.text.toList = sign ++ word) :
    ∃ o, ofReal t = .ok o ∧ IsReal t.text.toList o.expr := by
  have made : ∀ {v : Value}, realValue? t.text.toList = some v →
      ofReal t = .ok (literal v t.text) := by
    intro v value
    simp only [ofReal, value]
  cases lexeme with
  | sign mem => exact absurd mem (by simp [signTable])
  | @real whole fraction exponent suffix _ hw hf he suffixed _ _ =>
    cases suffixed with
    | absent =>
        -- the last character is a digit, and so no suffix
        rw [List.append_nil] at text
        obtain ⟨bits, read⟩ := Read.binary?_number .double hs hw hf he
        obtain ⟨front, digits, same, digit⟩ := Read.number_ends hw hf he
        obtain ⟨d, last⟩ := Option.isSome_iff_exists.mp (List.getLast?_isSome.mpr digit.1)
        have ends : t.text.toList.getLast? = some d := by
          rw [text, same, ← List.append_assoc, List.getLast?_append_of_ne_nil _ digit.1, last]
        have plain : d ∉ ['f', 'F'] := (digit_plain (digit.2 d (List.mem_of_getLast? last))).2.2.1
        have number : Read.float? t.text.toList = some (Binary.toFloat bits) := by
          rw [Read.float?, text, read]
          rfl
        have value : realValue? t.text.toList = some (.double (Binary.toFloat bits)) := by
          have other : ¬ (d = 'f' ∨ d = 'F') := by simpa using plain
          simp [realValue?, ends, other, number]
        exact ⟨_, made value, .double (by simpa [ends] using plain) number⟩
    | @present f letter =>
        obtain ⟨bits, read⟩ := Read.binary?_number .single hs hw hf he
        have split : t.text.toList = sign ++ (whole ++ (fraction ++ exponent)) ++ [f] := by
          simp [text]
        have number : Read.float32? (sign ++ (whole ++ (fraction ++ exponent))) =
            some (Binary.toFloat32 bits) := by
          rw [Read.float32?, read]
          rfl
        have value : realValue? t.text.toList = some (.single (Binary.toFloat32 bits)) := by
          have suffix : f = 'f' ∨ f = 'F' := by simpa using letter
          rw [split, realValue?, List.getLast?_concat, List.dropLast_concat]
          simp [suffix, number]
        exact ⟨_, made value, .single letter split number⟩

end Operand
end TypedExpr
