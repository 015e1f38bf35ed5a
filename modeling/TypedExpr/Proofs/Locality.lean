import TypedExpr.Proofs.Climbing
import TypedExpr.Proofs.RoundTrip

/-! # Parts of a longer text

A reader that gets to the end of its text stops at the same place in a text that goes on, before a
token that ends every expression. What it makes depends on its own tokens only. The record types
can be those that it has made before.
-/

namespace TypedExpr

namespace TokenRun

/-- The run with another one in the place of its end. -/
def followedBy : TokenRun → TokenRun → TokenRun
  | done _, later => later
  | failed e, _ => failed e
  | token t rest, later => token t (rest.followedBy later)

theorem length_le_followedBy (run later : TokenRun) :
    run.length ≤ (run.followedBy later).length := by
  induction run with
  | done | failed => exact Nat.zero_le _
  | token t rest ih => exact Nat.succ_le_succ ih

theorem length_followedBy_le {run : TokenRun} (clean : run.error? = none) (later : TokenRun) :
    later.length ≤ (run.followedBy later).length := by
  induction run with
  | done => exact Nat.le_refl _
  | failed => cases clean
  | token t rest ih => exact Nat.le_succ_of_le (ih clean)

/-- At the end of a run there is its end. -/
theorem followedBy_done {run : TokenRun} (clean : run.error? = none) :
    ∃ pos, run.followedBy (.done pos) = run := by
  induction run with
  | done pos => exact ⟨pos, rfl⟩
  | failed => cases clean
  | token t rest ih =>
      obtain ⟨pos, same⟩ := ih clean
      exact ⟨pos, congrArg (TokenRun.token t) same⟩

/-- The token at which the run opens, and what stands behind it. -/
inductive Opens : TokenRun → Token → TokenRun → Prop where
  | done (pos : Nat) : Opens (done pos) (Token.atEnd pos) (done pos)
  | token (t : Token) (rest : TokenRun) : Opens (token t rest) t rest

end TokenRun

namespace Source

open Reader

namespace State

/-- How many tokens are ahead, with the one that is looked at. -/
def ahead (s : State) : Nat := if s.token.kind = .endOfText then 0 else s.rest.length + 1

/-- The end stands behind all tokens and nowhere else. -/
structure Regular (s : State) : Prop where
  words : ∀ t ∈ s.rest.tokens, t.kind ≠ .endOfText
  atEnd : s.token.kind = .endOfText → ∃ pos, s.rest = .done pos

variable {s : State}

theorem regular_of_words {t : Token} {rest : TokenRun} {cache : RecordCache}
    (words : ∀ u ∈ (TokenRun.token t rest).tokens, u.kind ≠ .endOfText) :
    State.Regular ⟨t, rest, cache⟩ :=
  ⟨fun u hu => words u (List.mem_cons_of_mem _ hu),
    fun atEnd => absurd atEnd (words t List.mem_cons_self)⟩

theorem ahead_of_atEnd (h : s.token.kind = .endOfText) : s.ahead = 0 := if_pos h

theorem atEnd_of_ahead (h : s.ahead = 0) : s.token.kind = .endOfText := by
  by_contra inside
  rw [ahead, if_neg inside] at h
  cases h

theorem ahead_of_inside (h : s.token.kind ≠ .endOfText) : s.ahead = s.rest.length + 1 := if_neg h

theorem ahead_le (s : State) : s.ahead ≤ s.rest.length + 1 := by
  unfold ahead
  split
  · exact Nat.zero_le _
  · exact Nat.le_refl _

end State

section Bind

variable {ε σ α β : Type} {s s' : σ} {r : EStateM ε σ α} {f : α → EStateM ε σ β}

theorem bind_of_ok {a : α} (h : r s = .ok a s') : (r >>= f) s = f a s' := by
  simp only [bind, EStateM.bind, h]

theorem bind_of_error {e : ε} (h : r s = .error e s') : (r >>= f) s = .error e s' := by
  simp only [bind, EStateM.bind, h]

theorem exists_of_bind {b : β} (h : (r >>= f) s = .ok b s') :
    ∃ a t, r s = .ok a t ∧ f a t = .ok b s' := by
  cases first : r s with
  | error e t => cases (bind_of_error first).symm.trans h
  | ok a t => exact ⟨a, t, rfl, (bind_of_ok first).symm.trans h⟩

end Bind

section Expect

variable {β : Type} {s : State} {kind : TokenKind} {problem : Problem} {f : Unit → Reader β}

theorem bind_expect (found : s.token.kind = kind) : (expect kind problem >>= f) s = f () s := by
  show ((if (s.token.kind == kind) = true then pure () else fail problem) >>= f) s = _
  rw [if_pos (beq_iff_eq.mpr found)]
  rfl

theorem expect_fails (other : s.token.kind ≠ kind) :
    (expect kind problem >>= f) s = .error ⟨problem, s.token.pos⟩ s := by
  show ((if (s.token.kind == kind) = true then pure () else fail problem) >>= f) s = _
  rw [if_neg (by rwa [beq_iff_eq])]
  rfl

end Expect

section Records

variable {s : State} {shape : List Property} {pos : Nat}

theorem recordType_made {r : RecordType} {cache : RecordCache}
    (h : s.cache.getOrCreate shape = .ok (r, cache)) :
    recordType shape pos s = .ok r { s with cache } := by
  have looked : (get : Reader State) s = .ok s s := rfl
  rw [recordType, bind_of_ok looked]
  simp only [h]
  rfl

theorem recordType_refused {e : RecordError} (h : s.cache.getOrCreate shape = .error e) :
    recordType shape pos s = .error ⟨.invalidProjection e.message, pos⟩ s := by
  have looked : (get : Reader State) s = .ok s s := rfl
  rw [recordType, bind_of_ok looked]
  simp only [h]
  rfl

end Records

/-- From one state to the other so many tokens at least have been passed. -/
structure Moves (n : Nat) (s s' : State) : Prop where
  regular : s'.Regular
  error : s'.rest.error? = s.rest.error?
  cache : s'.cache.Extends s.cache
  fewer : s'.ahead + n ≤ s.ahead

/-- Where a part stands: what is behind it begins with a token before which expressions end. The
cache is the one that is kept, if the record types of the part have been made before. -/
structure Place where
  behind : TokenRun
  first : Token
  more : TokenRun
  opens : behind.Opens first more
  ends : Level.conditional.StopsAt first
  noCall : first.kind ≠ .openParen
  kept : Option RecordCache

namespace Place

/-- The state in the longer text. -/
def around (p : Place) (s : State) : State :=
  if s.token.kind = .endOfText then ⟨p.first, p.more, p.kept.getD s.cache⟩
  else ⟨s.token, s.rest.followedBy p.behind, p.kept.getD s.cache⟩

variable {p : Place} {s : State} {α β : Type} {n m : Nat}

theorem around_atEnd (h : s.token.kind = .endOfText) :
    p.around s = ⟨p.first, p.more, p.kept.getD s.cache⟩ := if_pos h

theorem around_inside (h : s.token.kind ≠ .endOfText) :
    p.around s = ⟨s.token, s.rest.followedBy p.behind, p.kept.getD s.cache⟩ := if_neg h

theorem around_cache : (p.around s).cache = p.kept.getD s.cache := by
  unfold around
  split <;> rfl

/-- The second reader does in the longer text what the first does at `s`. On the way `n` tokens at
least are passed; the readers may part where less than `m` are ahead then. -/
def Follows (p : Place) (n m : Nat) (r r' : Reader α) (s : State) : Prop :=
  s.Regular → ∀ a s', r s = .ok a s' → Moves n s s' ∧
    (m ≤ s'.ahead → (∀ later ∈ p.kept, later.Extends s'.cache) →
      r' (p.around s) = .ok a (p.around s'))

/-- The reader itself does in the longer text what it does at `s`. -/
abbrev Carries (p : Place) (n m : Nat) (r : Reader α) (s : State) : Prop := p.Follows n m r r s

namespace Follows

variable {r r' r₂ r₂' : Reader α} {f f' : α → Reader β}

theorem bind {u l v : Nat} (hr : p.Follows u l r r' s)
    (hf : ∀ a s', Moves u s s' → p.Follows v m (f a) (f' a) s') (enough : l ≤ m + v)
    (passed : n ≤ u + v) : p.Follows n m (r >>= f) (r' >>= f') s := by
  intro regular b s₂ read
  obtain ⟨a, s₁, first, second⟩ := exists_of_bind read
  obtain ⟨moved, follows⟩ := hr regular a s₁ first
  obtain ⟨moved', follows'⟩ := hf a s₁ moved moved.regular b s₂ second
  have fewer := moved.fewer
  have fewer' := moved'.fewer
  refine ⟨⟨moved'.regular, moved'.error.trans moved.error, moved'.cache.trans moved.cache,
    by omega⟩, fun some kept => ?_⟩
  have before := follows (by omega) fun later mem => (kept later mem).trans moved'.cache
  rw [bind_of_ok before]
  exact follows' some kept

/-- A token is passed first. -/
theorem step (hr : p.Follows 1 0 r r' s)
    (hf : ∀ a s', Moves 1 s s' → p.Follows 0 m (f a) (f' a) s') :
    p.Follows 1 m (r >>= f) (r' >>= f') s := hr.bind hf (Nat.zero_le _) (Nat.le_refl _)

/-- No token has to be passed first. -/
theorem still (hr : p.Follows 0 0 r r' s)
    (hf : ∀ a s', Moves 0 s s' → p.Follows n m (f a) (f' a) s') :
    p.Follows n m (r >>= f) (r' >>= f') s := hr.bind hf (Nat.zero_le _) (by omega)

theorem weaken {u l : Nat} (h : p.Follows u l r r' s) (hu : n ≤ u) (hl : l ≤ m) :
    p.Follows n m r r' s := by
  intro regular a s' read
  obtain ⟨moved, follows⟩ := h regular a s' read
  exact ⟨{ moved with fewer := Nat.le_trans (Nat.add_le_add_left hu _) moved.fewer },
    fun some => follows (Nat.le_trans hl some)⟩

/-- It does not matter that a token is passed. -/
theorem loose (h : p.Follows 1 0 r r' s) : p.Follows 0 m r r' s :=
  h.weaken (Nat.zero_le 1) (Nat.zero_le m)

theorem pure (a : α) : p.Carries 0 m (Pure.pure a) s := by
  intro regular b s' read
  cases read
  exact ⟨⟨regular, rfl, .refl _, Nat.le_refl _⟩, fun _ _ => rfl⟩

theorem value {a : α} (h : p.Follows n m (f a) (f' a) s) :
    p.Follows n m (Pure.pure a >>= f) (Pure.pure a >>= f') s := h

theorem refuses (h : ∀ a s', r s ≠ .ok a s') : p.Follows n m r r' s :=
  fun _ a s' read => absurd read (h a s')

theorem failAt (pos : Nat) (problem : Problem) : p.Follows n m (Reader.failAt pos problem) r' s :=
  .refuses nofun

theorem fail (problem : Problem) : p.Follows n m (Reader.fail problem) r' s := .refuses nofun

theorem check (x : Except Diagnostic α) : p.Carries 0 m (check x) s := by
  cases x with
  | ok a => exact .pure a
  | error e => exact .refuses nofun

theorem ite {c : Prop} [Decidable c] {t t' : Reader α} (hr : c → p.Follows n m r r' s)
    (ht : ¬ c → p.Follows n m t t' s) :
    p.Follows n m (if c then r else t) (if c then r' else t') s := by
  split
  · exact hr ‹c›
  · exact ht ‹¬ c›

/-- Both readers do nothing. -/
theorem standing {a : α} (first : r s = .ok a s)
    (second : r' (p.around s) = .ok a (p.around s)) : p.Follows 0 m r r' s := by
  intro regular b s' read
  cases first.symm.trans read
  exact ⟨⟨regular, rfl, .refl _, Nat.le_refl _⟩, fun _ _ => second⟩

/-- The same token is looked at, unless the readers may part here. -/
theorem look (h : p.Follows n m r r' s) (some : s.token.kind = .endOfText → 1 ≤ n + m)
    (first : r₂ s = r s)
    (same : s.token.kind ≠ .endOfText → r₂' (p.around s) = r' (p.around s)) :
    p.Follows n m r₂ r₂' s := by
  intro regular a s' read
  obtain ⟨moved, follows⟩ := h regular a s' (first.symm.trans read)
  refine ⟨moved, fun enough kept => ?_⟩
  have inside : s.token.kind ≠ .endOfText := by
    intro atEnd
    have fewer := moved.fewer
    rw [State.ahead_of_atEnd atEnd] at fewer
    have := some atEnd
    omega
  exact (same inside).trans (follows enough kept)

theorem tokenInside {f f' : Token → Reader β} (inside : s.token.kind ≠ .endOfText)
    (h : p.Follows n m (f s.token) (f' s.token) s) :
    p.Follows n m (Reader.token >>= f) (Reader.token >>= f') s := by
  refine h.look (fun atEnd => absurd atEnd inside) rfl fun inside => ?_
  show f' (p.around s).token _ = _
  rw [around_inside inside]

theorem token {f f' : Token → Reader β} (h : p.Follows n m (f s.token) (f' s.token) s)
    (some : 1 ≤ n + m) : p.Follows n m (Reader.token >>= f) (Reader.token >>= f') s := by
  refine h.look (fun _ => some) rfl fun inside => ?_
  show f' (p.around s).token _ = _
  rw [around_inside inside]

theorem isAt {f f' : Bool → Reader β} {kind : TokenKind}
    (h : p.Follows n m (f (s.token.kind == kind)) (f' (s.token.kind == kind)) s)
    (some : 1 ≤ n + m) : p.Follows n m (Reader.isAt kind >>= f) (Reader.isAt kind >>= f') s := by
  refine h.look (fun _ => some) rfl fun inside => ?_
  show f' ((p.around s).token.kind == kind) _ = _
  rw [around_inside inside]

/-- At no end is there a token of the kind. -/
theorem isAtOther {f f' : Bool → Reader β} {kind : TokenKind} (h : p.first.kind ≠ kind)
    (real : kind ≠ .endOfText)
    (hf : p.Follows n m (f (s.token.kind == kind)) (f' (s.token.kind == kind)) s) :
    p.Follows n m (Reader.isAt kind >>= f) (Reader.isAt kind >>= f') s := by
  intro regular a s' read
  obtain ⟨moved, follows⟩ := hf regular a s' read
  refine ⟨moved, fun enough kept => ?_⟩
  show f' ((p.around s).token.kind == kind) _ = _
  have same : ((p.around s).token.kind == kind) = (s.token.kind == kind) := by
    by_cases atEnd : s.token.kind = .endOfText
    · rw [around_atEnd atEnd, atEnd, beq_false_of_ne h, beq_false_of_ne real.symm]
    · rw [around_inside atEnd]
  rw [same]
  exact follows enough kept

theorem next (inside : s.token.kind ≠ .endOfText) : p.Carries 1 0 Reader.next s := by
  obtain ⟨t, rest, cache⟩ := s
  rintro ⟨words, -⟩ _ s' read
  have here : p.around ⟨t, rest, cache⟩ = ⟨t, rest.followedBy p.behind, p.kept.getD cache⟩ :=
    around_inside inside
  rw [here]
  cases rest with
  | failed e => cases read
  | token u rest =>
      cases read
      have word : u.kind ≠ .endOfText := words u (by simp [TokenRun.tokens])
      refine ⟨⟨⟨fun t ht => words t (List.mem_cons_of_mem _ ht), fun atEnd => absurd atEnd word⟩,
        rfl, .refl _, ?_⟩, fun _ _ => ?_⟩
      · rw [State.ahead_of_inside word, State.ahead_of_inside inside]
        exact Nat.le_refl _
      · rw [around_inside word]
        rfl
  | done pos =>
      cases read
      refine ⟨⟨⟨words, fun _ => ⟨pos, rfl⟩⟩, rfl, .refl _, ?_⟩, fun _ _ => ?_⟩
      · rw [State.ahead_of_atEnd rfl, State.ahead_of_inside inside]
        exact Nat.le_add_left _ _
      · rw [around_atEnd rfl]
        obtain ⟨run, token, behind, opens, -, -, -⟩ := p
        cases opens <;> rfl

theorem expect {kind : TokenKind} {problem : Problem} {f f' : Unit → Reader β}
    (real : kind ≠ .endOfText) (h : s.token.kind = kind → p.Follows n m (f ()) (f' ()) s) :
    p.Follows n m (Reader.expect kind problem >>= f) (Reader.expect kind problem >>= f') s := by
  intro regular a s' read
  by_cases found : s.token.kind = kind
  · have inside : s.token.kind ≠ .endOfText := found ▸ real
    have here : (p.around s).token.kind = kind := by rw [around_inside inside, found]
    rw [bind_expect found] at read
    rw [bind_expect here]
    exact h found regular a s' read
  · rw [expect_fails found] at read
    cases read

theorem skip {kind : TokenKind} {problem : Problem} (real : kind ≠ .endOfText) :
    p.Carries 1 0 (Reader.skip kind problem) s :=
  .expect real fun found => .next (found ▸ real)

theorem identifier {f f' : String → Reader β}
    (h : s.token.kind = .identifier → ∀ name, p.Follows n m (f name) (f' name) s) :
    p.Follows n m (Reader.identifier >>= f) (Reader.identifier >>= f') s := by
  simp only [Reader.identifier, bind_assoc]
  refine .expect nofun fun found => ?_
  have inside : s.token.kind ≠ .endOfText := by simp [found]
  refine (h found _).look (fun atEnd => absurd atEnd inside) rfl fun _ => ?_
  rw [around_inside inside]
  rfl

/-- Another token of the text is put in the place of the one that is looked at. -/
theorem retoken {t : Token} {f f' : PUnit → Reader β} (inside : s.token.kind ≠ .endOfText)
    (word : t.kind ≠ .endOfText)
    (h : p.Follows n m (f ⟨⟩) (f' ⟨⟩) { s with token := t }) :
    p.Follows n m ((modify fun s => { s with token := t } : Reader PUnit) >>= f)
      ((modify fun s => { s with token := t } : Reader PUnit) >>= f') s := by
  intro regular a s' read
  obtain ⟨moved, follows⟩ := h ⟨regular.words, fun atEnd => absurd atEnd word⟩ a s' read
  have ahead : State.ahead { s with token := t } = s.ahead :=
    (State.ahead_of_inside word).trans (State.ahead_of_inside inside).symm
  refine ⟨{ moved with fewer := ahead ▸ moved.fewer }, fun enough kept => ?_⟩
  have reads := follows enough kept
  rw [around_inside word] at reads
  rw [around_inside inside]
  exact reads

/-- However many tokens stand behind, there are steps enough for those ahead. -/
theorem remaining {f f' : Nat → Reader β}
    (h : ∀ k k', s.ahead ≤ k → k ≤ k' → p.Follows n m (f k) (f' k') s) :
    p.Follows n m (Reader.remaining >>= f) (Reader.remaining >>= f') s := by
  intro regular
  have more : s.rest.length ≤ (p.around s).rest.length := by
    by_cases atEnd : s.token.kind = .endOfText
    · obtain ⟨pos, rest⟩ := regular.atEnd atEnd
      rw [rest]
      exact Nat.zero_le _
    · rw [around_inside atEnd]
      exact TokenRun.length_le_followedBy _ _
  exact h _ _ s.ahead_le (Nat.add_le_add_right more 1) regular

theorem recordType (shape : List Property) (pos : Nat) :
    p.Carries 0 m (Reader.recordType shape pos) s := by
  intro regular r s' read
  cases made : s.cache.getOrCreate shape with
  | error e =>
      rw [recordType_refused made] at read
      cases read
  | ok found =>
      obtain ⟨r, cache⟩ := found
      rw [recordType_made made] at read
      cases read
      have extended := (RecordCache.getOrCreate_ok made).2.2
      refine ⟨⟨⟨regular.words, regular.atEnd⟩, rfl, extended, Nat.le_refl _⟩, fun _ kept => ?_⟩
      have again : (p.around s).cache.getOrCreate shape = .ok (r, p.kept.getD cache) := by
        rw [around_cache]
        cases h : p.kept with
        | none => exact made
        | some later => exact RecordCache.getOrCreate_again made (kept later h)
      rw [recordType_made again]
      by_cases atEnd : s.token.kind = .endOfText
      · rw [around_atEnd atEnd, around_atEnd (s := { s with cache }) atEnd]
      · rw [around_inside atEnd, around_inside (s := { s with cache }) atEnd]

/-- Every item passes a token, and so the steps do not run out before the tokens do. -/
theorem itemsUpTo {item : Reader α} (h : ∀ s, p.Carries 1 1 item s) {k k' : Nat}
    (enough : s.ahead ≤ k) (le : k ≤ k') :
    p.Follows 1 1 (Reader.itemsUpTo item k) (Reader.itemsUpTo item k') s := by
  induction k generalizing k' s with
  | zero =>
      intro regular as s' read
      have one : p.Carries 1 1 (do return [← item]) s :=
        (h s).bind (fun a _ _ => .pure [a]) (Nat.le_refl 1) (Nat.le_refl 1)
      have fewer := (one regular as s' read).1.fewer
      omega
  | succ k ih =>
      obtain ⟨k', rfl⟩ := Nat.exists_eq_add_of_le' (Nat.lt_of_lt_of_le k.succ_pos le)
      refine (h s).bind (v := 0) (fun a s₁ moved => ?_) (Nat.le_refl 1) (Nat.le_refl 1)
      refine .isAt (.ite (fun comma => ?_) fun _ => .pure _) (Nat.le_refl 1)
      have inside : s₁.token.kind ≠ .endOfText := by simp [beq_iff_eq.mp comma]
      refine .weaken (.step (.next inside) fun _ s₂ moved₂ => ?_) (Nat.zero_le 1) (Nat.le_refl 1)
      have fewer := moved.fewer
      have fewer₂ := moved₂.fewer
      have later := ih (s := s₂) (by omega) (Nat.le_of_succ_le_succ le)
      exact later.bind (fun as _ _ => .pure _) (Nat.le_refl 1) (Nat.zero_le _)

theorem items {item : Reader α} {l : Nat} (h : ∀ s, p.Carries 1 l item s) (few : l ≤ 1) :
    p.Carries 1 1 (Reader.items item) s :=
  .remaining fun _ _ => itemsUpTo fun s => (h s).weaken (Nat.le_refl 1) few

end Follows

/-- In the place the part reads on its own tokens only. -/
def Local (p : Place) (part : Part) : Prop := ∀ env s, p.Carries 1 0 (part env) s

end Place

open Place

variable {p : Place} {operand expression : Part} {s : State}

theorem tooDeep_local : p.Local tooDeep := fun _ _ => .fail _

theorem argumentList_local {r : Reader Operand} (h : ∀ s, p.Carries 1 0 r s) :
    p.Carries 1 0 (argumentList r) s := by
  have close : ∀ (args : List Operand) (s : State), p.Carries 1 0 (do
        skip .closeParen .closeParenOrCommaExpected
        return args) s :=
    fun args s => .step (.skip nofun) fun _ _ _ => .pure args
  refine .step (.skip nofun) fun _ s₁ _ => .loose (.isAt (.ite (fun _ => ?_) fun _ => ?_)
    (Nat.le_refl 1))
  · exact .value (close [] s₁)
  · exact (Follows.items h (Nat.zero_le 1)).bind (fun args s₂ _ => close args s₂) (Nat.le_refl 1)
      (Nat.le_add_left 1 1)

theorem memberAccess_local (he : p.Local expression) (env : Env) (t : Ty)
    (target : Option Operand) (s : State) :
    p.Carries 1 0 (memberAccess expression env t target) s := by
  refine .token (.identifier fun found name => ?_) (Nat.le_refl 1)
  refine .step (.next (by simp [found])) fun _ s₁ _ => ?_
  refine .isAtOther p.noCall nofun (.ite (fun _ => .check _) fun _ => .loose ?_)
  split
  · exact (argumentList_local (he _)).step fun _ _ _ => .check _
  · exact (argumentList_local (he env)).step fun _ _ _ => .check _

theorem elementAccess_local (he : p.Local expression) (env : Env) (target : Operand) (s : State) :
    p.Carries 1 0 (elementAccess expression env target) s := by
  refine .token (.step (.skip nofun) fun _ _ _ => .loose ?_) (Nat.le_refl 1)
  refine (Follows.items (he env) (Nat.zero_le 1)).bind (v := 1) (fun _ _ _ => ?_) (Nat.le_refl 1)
    (Nat.le_add_left 1 1)
  exact .step (.skip nofun) fun _ _ _ => .check _

/-- No member and no index follows. -/
theorem postfixesUpTo_ends {t : State}
    (noMember : t.token.kind ≠ .dot ∧ t.token.kind ≠ .openBracket) (env : Env) (n : Nat)
    (o : Operand) : postfixesUpTo expression env n o t = .ok o t := by
  cases n with
  | zero => rfl
  | succ n =>
      show (if (t.token.kind == .dot) = true then _ else (isAt .openBracket >>= _ : Reader _)) t = _
      rw [beq_false_of_ne noMember.1, if_neg Bool.false_ne_true]
      show (if (t.token.kind == .openBracket) = true then _ else pure o : Reader _) t = _
      rw [beq_false_of_ne noMember.2, if_neg Bool.false_ne_true]
      rfl

/-- Members and indexes each pass a token, and none opens at the end. -/
theorem postfixesUpTo_local (he : p.Local expression) (env : Env) (o : Operand) (s : State)
    {k k' : Nat} (enough : s.ahead ≤ k) (le : k ≤ k') :
    p.Follows 0 0 (postfixesUpTo expression env k o) (postfixesUpTo expression env k' o) s := by
  induction k generalizing k' o s with
  | zero =>
      have atEnd : s.token.kind = .endOfText := State.atEnd_of_ahead (Nat.le_zero.mp enough)
      refine .standing rfl (postfixesUpTo_ends ?_ env k' o)
      rw [around_atEnd atEnd]
      exact p.ends.noMember
  | succ k ih =>
      obtain ⟨k', rfl⟩ := Nat.exists_eq_add_of_le' (Nat.lt_of_lt_of_le k.succ_pos le)
      have later : ∀ (o : Operand) (s' : State), s'.ahead + 1 ≤ s.ahead →
          p.Follows 0 0 (postfixesUpTo expression env k o) (postfixesUpTo expression env k' o) s' :=
        fun o s' fewer => ih o s' (by omega) (Nat.le_of_succ_le_succ le)
      refine .isAtOther p.ends.noMember.1 nofun (.ite (fun dot => ?_) fun _ => ?_)
      · have inside : s.token.kind ≠ .endOfText := by simp [beq_iff_eq.mp dot]
        refine .loose (.step (.next inside) fun _ s₁ moved => .loose ?_)
        refine .step (memberAccess_local he env _ _ s₁) fun o s₂ moved₂ => later o s₂ ?_
        have fewer := moved.fewer
        have fewer₂ := moved₂.fewer
        omega
      · refine .isAtOther p.ends.noMember.2 nofun (.ite (fun bracket => ?_) fun _ => .pure o)
        exact .loose (.step (elementAccess_local he env o s) fun o s₁ moved =>
          later o s₁ moved.fewer)

theorem parenthesized_local (he : p.Local expression) (env : Env)
    (inside : s.token.kind ≠ .endOfText) :
    p.Carries 1 0 (parenthesized expression env) s :=
  .step (.next inside) fun _ _ _ => .loose (.step (he env _) fun _ _ _ =>
    .loose (.step (.skip nofun) fun _ _ _ => .pure _))

theorem iif_local (he : p.Local expression) (env : Env) (inside : s.token.kind ≠ .endOfText) :
    p.Carries 1 0 (iif expression env) s := by
  refine .token (.step (.next inside) fun _ _ _ => .loose ?_) (Nat.le_refl 1)
  refine .step (argumentList_local (he env)) fun args _ _ => ?_
  split
  · exact .check _
  · exact .failAt _ _

/-- Behind a property there is something more. -/
theorem projectionItem_local (he : p.Local expression) (env : Env) (s : State) :
    p.Carries 1 1 (projectionItem expression env) s := by
  refine .token (.step (he env s) fun o s₁ _ => ?_) (Nat.le_add_left 1 1)
  refine .token (.ite (fun as => ?_) fun _ => ?_) (Nat.le_refl 1)
  · have inside : s₁.token.kind ≠ .endOfText := by
      intro atEnd
      simp [Token.isWord, atEnd] at as
    refine .loose (.step (.next inside) fun _ _ _ => .identifier fun found _ => ?_)
    exact .loose (.step (.next (by simp [found])) fun _ _ _ => .pure _)
  · split
    · exact .pure _
    · exact .failAt _ _

theorem projection_local (he : p.Local expression) (env : Env)
    (inside : s.token.kind ≠ .endOfText) :
    p.Carries 1 0 (projection expression env) s := by
  refine .token (.step (.next inside) fun _ _ _ => .loose (.step (.skip nofun) fun _ _ _ =>
    .loose ?_)) (Nat.le_refl 1)
  refine (Follows.items (projectionItem_local he env) (Nat.le_refl 1)).bind (v := 1)
    (fun _ _ _ => ?_) (Nat.le_refl 1) (Nat.le_add_left 1 1)
  exact .step (.skip nofun) fun _ _ _ => .still (.recordType _ _) fun _ _ _ => .pure _

theorem typeAccess_local (he : p.Local expression) (env : Env) (q : Predefined)
    (inside : s.token.kind ≠ .endOfText) :
    p.Carries 1 0 (typeAccess expression env q) s := by
  have called : ∀ (pos : Nat) (t : Ty) (s : State), p.Carries 0 0 (do
        let args ← argumentList (expression env)
        check (Operand.construct t args pos)) s :=
    fun _ _ _ => .loose (.step (argumentList_local (he env)) fun _ _ _ => .check _)
  have member : ∀ (t : Ty) (s : State), p.Carries 0 0 (do
        skip .dot .dotOrOpenParenExpected
        memberAccess expression env t none) s :=
    fun t _ => .loose (.step (.skip nofun) fun _ s' _ => .loose (memberAccess_local he env t none s'))
  have form : ∀ {s : State} (pos : Nat), s.token.kind ≠ .endOfText →
      p.Carries 1 0 (typeAccess.nullableForm pos (.predefined q)) s :=
    fun pos inside => .ite (fun _ => .refuses nofun)
      fun _ => .step (.next inside) fun _ _ _ => .pure _
  refine .token (.step (.next inside) fun _ s₁ _ => ?_) (Nat.le_refl 1)
  refine .isAtOther (p.ends.noChoice rfl) nofun (.ite (fun marked => ?_) fun _ => .value ?_)
  · have inside : s₁.token.kind ≠ .endOfText := by simp [beq_iff_eq.mp marked]
    refine .loose (.step (form _ inside) fun t s₂ _ => ?_)
    exact .isAtOther p.noCall nofun (.ite (fun _ => called _ t s₂) fun _ => member t s₂)
  · exact .isAtOther p.noCall nofun (.ite (fun _ => called _ _ s₁) fun _ => member _ s₁)

theorem symbol_local (he : p.Local expression) (env : Env) (x : External)
    (inside : s.token.kind ≠ .endOfText) :
    p.Carries 1 0 (symbol expression env x) s := by
  refine .token ?_ (Nat.le_refl 1)
  cases x with
  | symbols table => exact .refuses nofun
  | value | expr =>
    refine .value (.step (.next inside) fun _ _ _ => ?_)
    split
    · refine .isAtOther p.noCall nofun (.ite (fun _ => .loose ?_) fun _ => .pure _)
      exact .step (argumentList_local (he env)) fun _ _ _ => .check _
    · exact .pure _

theorem named_local (he : p.Local expression) (env : Env) (inside : s.token.kind ≠ .endOfText) :
    p.Carries 1 0 (named expression env) s := by
  have word : ∀ o : Operand, p.Carries 1 0 (do next; return o) s :=
    fun o => .step (.next inside) fun _ _ _ => .pure o
  refine .token (.ite (fun _ => word _) fun _ => .ite (fun _ => word _) fun _ =>
    .ite (fun _ => word _) fun _ => .ite (fun _ => ?_) fun _ => ?_) (Nat.le_refl 1)
  · split
    · exact word _
    · exact .fail _
  refine .ite (fun _ => iif_local he env inside) fun _ =>
    .ite (fun _ => projection_local he env inside) fun _ => ?_
  split
  · exact typeAccess_local he env _ inside
  · exact symbol_local he env _ inside
  · exact memberAccess_local he env _ _ s
  · exact .fail _

theorem literal_local (x : Except Diagnostic Operand) (inside : s.token.kind ≠ .endOfText) :
    p.Carries 1 0 (literal x) s := by
  cases x with
  | error e => exact .refuses nofun
  | ok o =>
    show p.Carries 1 0 (do next; return o) s
    exact .step (.next inside) fun _ _ _ => .pure o

theorem primary_local (he : p.Local expression) (env : Env) (s : State) :
    p.Carries 1 0 (primary expression env) s := by
  have start : p.Carries 1 0 (primaryStart expression env) s := by
    refine .token ?_ (Nat.le_refl 1)
    split
    · exact named_local he env (by simp [*])
    · exact literal_local _ (by simp [*])
    · exact literal_local _ (by simp [*])
    · exact literal_local _ (by simp [*])
    · exact parenthesized_local he env (by simp [*])
    · exact .fail _
  exact .step start fun o s₁ _ => .remaining fun _ _ => postfixesUpTo_local he env o s₁

theorem unaryOf_local (ho : p.Local operand) (he : p.Local expression) :
    p.Local (unaryOf operand expression) := by
  refine fun env s => .token ?_ (Nat.le_refl 1)
  split
  · exact primary_local he env s
  · rename_i op found
    have inside : s.token.kind ≠ .endOfText := by
      intro atEnd
      simp [Token.unaryOp?, Token.isWord, atEnd] at found
    refine .step (.next inside) fun _ s₁ _ => .loose (.token (.ite (fun number => ?_) fun _ => ?_)
      (Nat.le_refl 1))
    · have inside : s₁.token.kind ≠ .endOfText := by
        intro atEnd
        simp [isNumber, atEnd] at number
      exact .retoken inside inside (primary_local he env _)
    · exact .step (ho env s₁) fun _ _ _ => .check _

/-- No operator of the precedence follows. -/
theorem joinUpTo_ends {t : State} {level : Precedence} (other : t.token.precedence? ≠ some level)
    (r : Reader Operand) (n : Nat) (left : Operand) : joinUpTo level r n left t = .ok left t := by
  cases n with
  | zero => rfl
  | succ n =>
      show (if t.token.precedence? = some level then _ else pure left : Reader _) t = _
      rw [if_neg other]
      rfl

theorem precedence?_of_ends {t : Token} (h : Level.conditional.StopsAt t) :
    t.precedence? = none := by
  cases found : t.precedence? with
  | none => rfl
  | some level => exact absurd (h.looser level found) (Nat.not_lt_zero _)

/-- Each operator passes a token, and none stands at the end. -/
theorem joinUpTo_local {r : Reader Operand} (h : ∀ s, p.Carries 1 0 r s) (level : Precedence)
    (left : Operand) (s : State) {k k' : Nat} (enough : s.ahead ≤ k) (le : k ≤ k') :
    p.Follows 0 0 (joinUpTo level r k left) (joinUpTo level r k' left) s := by
  induction k generalizing k' left s with
  | zero =>
      have atEnd : s.token.kind = .endOfText := State.atEnd_of_ahead (Nat.le_zero.mp enough)
      refine .standing rfl (joinUpTo_ends ?_ r k' left)
      rw [around_atEnd atEnd, precedence?_of_ends p.ends]
      nofun
  | succ k ih =>
      obtain ⟨k', rfl⟩ := Nat.exists_eq_add_of_le' (Nat.lt_of_lt_of_le k.succ_pos le)
      by_cases atEnd : s.token.kind = .endOfText
      · refine .standing (joinUpTo_ends ?_ r (k + 1) left) (joinUpTo_ends ?_ r (k' + 1) left)
        · simp [Token.precedence?, Token.isWord, atEnd]
        · rw [around_atEnd atEnd, precedence?_of_ends p.ends]
          nofun
      · refine .tokenInside atEnd (.ite (fun _ => .loose ?_) fun _ => .pure left)
        refine .step (.next atEnd) fun _ s₁ moved => .loose (.step (h s₁) fun right s₂ moved₂ => ?_)
        refine .still (.check _) fun o s₃ moved₃ => ih o s₃ ?_ (Nat.le_of_succ_le_succ le)
        have fewer := moved.fewer
        have fewer₂ := moved₂.fewer
        have fewer₃ := moved₃.fewer
        omega

theorem joined_local {r : Reader Operand} (h : ∀ s, p.Carries 1 0 r s) (level : Precedence)
    (s : State) : p.Carries 1 0 (joined level r) s :=
  .step (h s) fun left s₁ _ => .remaining fun _ _ => joinUpTo_local h level left s₁

theorem expressionOf_local (ho : p.Local operand) (he : p.Local expression) :
    p.Local (expressionOf operand expression) := by
  intro env s
  have test : p.Carries 1 0 (binaryOf (operand env)) s :=
    joined_local (joined_local (joined_local (joined_local (joined_local (ho env) _) _) _) _) _ s
  refine .token (.step test fun _ s₁ _ => ?_) (Nat.le_refl 1)
  refine .isAtOther (p.ends.noChoice rfl) nofun (.ite (fun choice => ?_) fun _ => .pure _)
  have inside : s₁.token.kind ≠ .endOfText := by simp [beq_iff_eq.mp choice]
  refine .loose (.step (.next inside) fun _ s₂ _ => .loose (.step (he env s₂) fun _ _ _ =>
    .loose (.step (.skip nofun) fun _ s₃ _ => .loose (.step (he env s₃) fun _ _ _ => .check _))))

/-- With any number of levels an expression and an operand are read on their own tokens. -/
theorem levels_local (p : Place) (n : Nat) : p.Local (expressionAt n) ∧ p.Local (operandAt n) := by
  induction n with
  | zero => exact ⟨tooDeep_local, unaryOf_local tooDeep_local tooDeep_local⟩
  | succ n ih =>
      have he : p.Local (expressionOf (operandAt n) (expressionAt n)) :=
        expressionOf_local ih.2 ih.1
      exact ⟨he, unaryOf_local ih.2 he⟩

end Source

end TypedExpr
