import TypedExpr.Proofs.Lockstep

/-! # Texts by themselves

What a longer text makes of a part is what the part is by itself, with the record types that there
are then. So a reading of the whole is described by readings of its parts, one after another, of
which positions do not matter.
-/

namespace TypedExpr.Source

open Token Reader

/-- What a reader makes of a text that stands alone, of an error only the problem. -/
def Reader.alone (r : Reader Operand) (text : String) : EStateM Problem RecordCache Operand :=
  fun cache => match (do next; r : Reader Operand) ⟨Token.atEnd 0, Token.scan text, cache⟩ with
    | .ok o s => .ok o s.cache
    | .error e s => .error e.problem s.cache

/-- With the record types of some cache the reader gets to the end of the text. -/
def Complete (r : Reader Operand) (text : String) : Prop :=
  ∃ cache o s, (do next; r) ⟨Token.atEnd 0, Token.scan text, cache⟩ = .ok o s ∧
    s.token.kind = .endOfText

/-- A reading comes to the result that is known, in the sense of `R`, or fails with the problem that
is known. -/
inductive Meets {α β : Type}
    (R : α → RecordCache → EStateM.Result Diagnostic State β → Prop) :
    EStateM.Result Problem RecordCache α → EStateM.Result Diagnostic State β → Prop where
  | ok {a cache x} (h : R a cache x) : Meets R (.ok a cache) x
  | error (e : Diagnostic) (s : State) : Meets R (.error e.problem s.cache) (.error e s)

/-- A reading has the result, and stops at the place with the same record types. -/
def Lands {α : Type} (place : RecordCache → State) (a : α) (cache : RecordCache)
    (x : EStateM.Result Diagnostic State α) : Prop := x = .ok a (place cache)

theorem Meets.bind {α γ δ : Type} {place : RecordCache → State} {cache : RecordCache} {s : State}
    {R : γ → RecordCache → EStateM.Result Diagnostic State δ → Prop}
    {m : EStateM Problem RecordCache α} {f : α → EStateM Problem RecordCache γ} {r : Reader α}
    {g : α → Reader δ} (first : Meets (Lands place) (m cache) (r s))
    (later : ∀ a cache, Meets R (f a cache) (g a (place cache))) :
    Meets R ((m >>= f) cache) ((r >>= g) s) := by
  generalize known : m cache = x, read : r s = y at first
  cases first with
  | ok h =>
      cases h
      rw [bind_of_ok known, bind_of_ok read]
      exact later _ _
  | error e s =>
      rw [bind_of_error known, bind_of_error read]
      exact .error e s

namespace Site

/-- The state in which a part stops. -/
def after (p : Site) (cache : RecordCache) : State := ⟨p.first, p.more, cache⟩

/-- Before a parenthesis, a comma, a colon, a question mark or the end. -/
def before {run rest : TokenRun} {t : Token} (opens : run.Opens t rest)
    (kind : t.kind ∈ [.closeParen, .comma, .colon, .question, .endOfText]) : Site where
  behind := run
  first := t
  more := rest
  opens := opens
  ends := by
    simp only [List.mem_cons, List.not_mem_nil, or_false] at kind
    rcases kind with kind | kind | kind | kind | kind
    all_goals exact ⟨by simp [kind], by simp [precedence?, isWord, kind], nofun⟩
  noCall := fun call => absurd (call ▸ kind) (by decide)

/-- Before the end. -/
def atEnd (pos : Nat) : Site := .before (.done pos) (by simp [Token.atEnd])

end Site

/-- Where a text stands there is a first token, from which the reader gets through. -/
theorem Complete.opens {r : Reader Operand} {text : String} (complete : Complete r text)
    (blind : Reader.Blind r) (passes : ∀ s, s.Regular → ∀ o s', r s = .ok o s' → Moves 1 s s')
    {front : List Char} {run : TokenRun} (cuts : Cuts front text.toList run) :
    ∃ t rest cache o s, run = .token t rest ∧ State.Regular ⟨t, rest, cache⟩ ∧
      r ⟨t, rest, cache⟩ = .ok o s ∧ s.token.kind = .endOfText ∧ rest.error? = none := by
  obtain ⟨cache, o, s, reads, atEnd⟩ := complete
  have agree := blind.shifted cuts cache
  rw [reads] at agree
  generalize shifted : (do next; r : Reader Operand) ⟨Token.atEnd 0, run, cache⟩ = x at agree
  cases agree with
  | @ok _ o' _ s' result state =>
    have ends : s'.token.kind = .endOfText := state.token.kind_eq.symm.trans atEnd
    cases run with
    | failed e => cases shifted
    | done pos =>
        have moved := passes _ ⟨by simp [TokenRun.tokens], fun _ => ⟨pos, rfl⟩⟩ o' s' shifted
        exact absurd moved.fewer (Nat.not_succ_le_zero _)
    | token t rest =>
        have regular : State.Regular ⟨t, rest, cache⟩ := State.regular_of_words cuts.words
        have moved := passes _ regular o' s' shifted
        obtain ⟨pos, done⟩ := moved.regular.atEnd ends
        have clean := moved.error.symm
        rw [done] at clean
        exact ⟨t, rest, cache, o', s', rfl, regular, shifted, ends, clean⟩

/-- A text that a reader gets through with the record types of some cache comes, wherever it stands
and with whatever record types, to what it is by itself. -/
theorem Complete.site {r ρ r₁ : Reader Operand} {text : String} (complete : Complete r text)
    (blind : Reader.Blind r) (blind' : Reader.Blind ρ) {front : List Char} {t : Token}
    {rest : TokenRun} (cuts : Cuts front text.toList (.token t rest)) {p : Site}
    (steps : ∀ pos s, Lockstep (.atEnd pos) p 1 0 r ρ r₁ s) (cache : RecordCache) :
    Meets (Lands p.after) (ρ.alone text cache) (r₁ ⟨t, rest.followedBy p.behind, cache⟩) := by
  obtain ⟨t, rest, cache₀, o, s, ⟨⟩, regular, reads, atEnd, clean⟩ :=
    complete.opens blind (fun s regular o s' read => (steps 0 s regular o s' read).1) cuts
  have inside : t.kind ≠ .endOfText := cuts.words t (by simp [TokenRun.tokens])
  obtain ⟨pos, ended⟩ := TokenRun.followedBy_done clean
  have step := (steps pos _ regular o s reads).2 (Nat.zero_le _) cache
  rw [Site.around_inside inside, Site.around_inside inside] at step
  replace step : InStep (.atEnd pos) p s (ρ ⟨t, rest.followedBy (.done pos), cache⟩)
    (r₁ ⟨t, rest.followedBy p.behind, cache⟩) := step
  rw [ended] at step
  have agree : Matching Eq _ (ρ ⟨t, rest, cache⟩) := blind'.shifted cuts cache
  unfold Reader.alone
  generalize (do next; ρ : Reader Operand) ⟨Token.atEnd 0, Token.scan text, cache⟩ = x,
    ρ ⟨t, rest, cache⟩ = y, r₁ ⟨t, rest.followedBy p.behind, cache⟩ = z at agree step ⊢
  cases step with
  | ok a later =>
      cases agree with
      | ok result state =>
          cases result
          refine .ok ?_
          rw [state.cache.trans Site.around_cache, Lands, Site.around_atEnd atEnd]
          rfl
  | @error e u u' same =>
      cases agree with
      | @error e' _ s' _ problem kept =>
          show Meets _ (.error e'.problem s'.cache) _
          rw [problem, kept.trans same]
          exact .error e u'

end TypedExpr.Source
