import TypedExpr.Proofs.Adjoining

/-! # Two readings in step

A part that can be read to the end of its text is read at two sites of longer texts, where other
record types have been made. Whatever it becomes, which tokens belong to it does not depend on the
types of its parts. So both readings come to the same operand and stop at the end of the part, or
both fail at the same token with the same problem. The sites can have other levels left.
-/

namespace TypedExpr.Source

open Reader

/-- Where a part stands: what is behind it begins with a token that is no part of an operand and
joins no operands. -/
structure Site where
  behind : TokenRun
  first : Token
  more : TokenRun
  opens : behind.Opens first more
  ends : (Level.joined .or).StopsAt first
  noCall : first.kind ≠ .openParen

namespace Site

variable {p : Site} {s : State} {cache : RecordCache}

/-- The state in the longer text, where these record types have been made. -/
def around (p : Site) (cache : RecordCache) (s : State) : State :=
  if s.token.kind = .endOfText then ⟨p.first, p.more, cache⟩
  else ⟨s.token, s.rest.followedBy p.behind, cache⟩

theorem around_atEnd (h : s.token.kind = .endOfText) :
    p.around cache s = ⟨p.first, p.more, cache⟩ := if_pos h

theorem around_inside (h : s.token.kind ≠ .endOfText) :
    p.around cache s = ⟨s.token, s.rest.followedBy p.behind, cache⟩ := if_neg h

theorem around_cache : (p.around cache s).cache = cache := by
  unfold around
  split <;> rfl

/-- Only the place is taken from the state. -/
theorem around_with_cache (later : RecordCache) :
    { p.around cache s with cache := later } = p.around later s := by
  unfold around
  split <;> rfl

theorem length_le_around (p : Site) (cache : RecordCache) (regular : s.Regular) :
    s.rest.length ≤ (p.around cache s).rest.length := by
  by_cases atEnd : s.token.kind = .endOfText
  · obtain ⟨pos, rest⟩ := regular.atEnd atEnd
    rw [rest]
    exact Nat.zero_le _
  · rw [around_inside atEnd]
    exact TokenRun.length_le_followedBy _ _

theorem noOperator (p : Site) (level : Precedence) : p.first.precedence? ≠ some level := by
  intro found
  have looser := p.ends.looser level found
  cases level <;> exact absurd looser (by decide)

/-- No choice follows. -/
def NoChoice (p : Site) : Prop := p.first.kind ≠ .question

end Site

/-- Two readings at the sites end with one result where the part is at `s`, or with one error. -/
inductive InStep {α : Type} (p q : Site) (s : State) :
    EStateM.Result Diagnostic State α → EStateM.Result Diagnostic State α → Prop where
  | ok (a : α) (cache : RecordCache) :
      InStep p q s (.ok a (p.around cache s)) (.ok a (q.around cache s))
  | error (e : Diagnostic) {t t' : State} (same : t.cache = t'.cache) :
      InStep p q s (.error e t) (.error e t')

/-- The first reader goes to the end of a part; the other two, from the same place of the part at
the sites, go on in step. On the way `n` tokens at least are passed; all may part where less than
`m` are ahead then. -/
def Lockstep {α : Type} (p q : Site) (n m : Nat) (r r₁ r₂ : Reader α) (s : State) : Prop :=
  s.Regular → ∀ a s', r s = .ok a s' → Moves n s s' ∧
    (m ≤ s'.ahead → ∀ cache, InStep p q s' (r₁ (p.around cache s)) (r₂ (q.around cache s)))

variable {α β : Type} {p q : Site} {n m : Nat} {s : State}

/-- What is made of two readings in step. -/
theorem InStep.bind {r₁ r₂ : Reader α} {f₁ f₂ : α → Reader β} {s₁ s₂ : State}
    {P : EStateM.Result Diagnostic State β → EStateM.Result Diagnostic State β → Prop}
    (h : InStep p q s (r₁ s₁) (r₂ s₂))
    (fails : ∀ e t t', t.cache = t'.cache → P (.error e t) (.error e t'))
    (goes : ∀ a cache, P (f₁ a (p.around cache s)) (f₂ a (q.around cache s))) :
    P ((r₁ >>= f₁) s₁) ((r₂ >>= f₂) s₂) := by
  generalize first : r₁ s₁ = x, second : r₂ s₂ = y at h
  cases h with
  | ok a cache =>
      rw [bind_of_ok first, bind_of_ok second]
      exact goes a cache
  | error e same =>
      rw [bind_of_error first, bind_of_error second]
      exact fails e _ _ same

namespace Lockstep

variable {r r₁ r₂ r' r₁' r₂' : Reader α} {f f₁ f₂ : α → Reader β}

theorem bind {u l v : Nat} (hr : Lockstep p q u l r r₁ r₂ s)
    (hf : ∀ a b s', Moves u s s' → Lockstep p q v m (f a) (f₁ b) (f₂ b) s') (enough : l ≤ m + v)
    (passed : n ≤ u + v) : Lockstep p q n m (r >>= f) (r₁ >>= f₁) (r₂ >>= f₂) s := by
  intro regular b s₂ read
  obtain ⟨a, s₁, first, second⟩ := exists_of_bind read
  obtain ⟨moved, agree⟩ := hr regular a s₁ first
  obtain ⟨moved', -⟩ := hf a a s₁ moved moved.regular b s₂ second
  have fewer := moved.fewer
  have fewer' := moved'.fewer
  refine ⟨⟨moved'.regular, moved'.error.trans moved.error, moved'.cache.trans moved.cache,
    by omega⟩, fun some cache => ?_⟩
  refine (agree (by omega) cache).bind (fun e t t' same => .error e same) fun a' cache => ?_
  exact (hf a a' s₁ moved moved.regular b s₂ second).2 some cache

/-- A token is passed first. -/
theorem step (hr : Lockstep p q 1 0 r r₁ r₂ s)
    (hf : ∀ a b s', Moves 1 s s' → Lockstep p q 0 m (f a) (f₁ b) (f₂ b) s') :
    Lockstep p q 1 m (r >>= f) (r₁ >>= f₁) (r₂ >>= f₂) s :=
  hr.bind hf (Nat.zero_le _) (Nat.le_refl _)

/-- A token is passed first, and another one behind it. -/
theorem stepBefore (hr : Lockstep p q 1 1 r r₁ r₂ s)
    (hf : ∀ a b s', Moves 1 s s' → Lockstep p q 1 m (f a) (f₁ b) (f₂ b) s') :
    Lockstep p q 1 m (r >>= f) (r₁ >>= f₁) (r₂ >>= f₂) s :=
  hr.bind hf (Nat.le_add_left 1 m) (Nat.le_add_left 1 1)

/-- No token has to be passed first. -/
theorem still (hr : Lockstep p q 0 0 r r₁ r₂ s)
    (hf : ∀ a b s', Moves 0 s s' → Lockstep p q n m (f a) (f₁ b) (f₂ b) s') :
    Lockstep p q n m (r >>= f) (r₁ >>= f₁) (r₂ >>= f₂) s :=
  hr.bind hf (Nat.zero_le _) (by omega)

theorem weaken {u l : Nat} (h : Lockstep p q u l r r₁ r₂ s) (hu : n ≤ u) (hl : l ≤ m) :
    Lockstep p q n m r r₁ r₂ s := by
  intro regular a s' read
  obtain ⟨moved, agree⟩ := h regular a s' read
  exact ⟨{ moved with fewer := Nat.le_trans (Nat.add_le_add_left hu _) moved.fewer },
    fun some => agree (Nat.le_trans hl some)⟩

/-- It does not matter that a token is passed. -/
theorem loose (h : Lockstep p q 1 0 r r₁ r₂ s) : Lockstep p q 0 m r r₁ r₂ s :=
  h.weaken (Nat.zero_le 1) (Nat.zero_le m)

/-- No reader does anything. -/
theorem standing {a b : α} (h : r s = .ok a s)
    (first : ∀ cache, r₁ (p.around cache s) = .ok b (p.around cache s))
    (second : ∀ cache, r₂ (q.around cache s) = .ok b (q.around cache s)) :
    Lockstep p q 0 m r r₁ r₂ s := by
  intro regular c s' read
  cases h.symm.trans read
  refine ⟨⟨regular, rfl, .refl _, Nat.le_refl _⟩, fun _ cache => ?_⟩
  rw [first, second]
  exact .ok b cache

theorem pure (a b : α) : Lockstep p q 0 m (Pure.pure a) (Pure.pure b) (Pure.pure b) s :=
  .standing rfl (fun _ => rfl) fun _ => rfl

theorem value {a b : α} (h : Lockstep p q n m (f a) (f₁ b) (f₂ b) s) :
    Lockstep p q n m (Pure.pure a >>= f) (Pure.pure b >>= f₁) (Pure.pure b >>= f₂) s := h

theorem refuses (h : ∀ a s', r s ≠ .ok a s') : Lockstep p q n m r r₁ r₂ s :=
  fun _ a s' read => absurd read (h a s')

theorem failAt (pos : Nat) (problem : Problem) :
    Lockstep p q n m (Reader.failAt pos problem) r₁ r₂ s := .refuses nofun

theorem fail (problem : Problem) : Lockstep p q n m (Reader.fail problem) r₁ r₂ s :=
  .refuses nofun

/-- Only the readings at the sites fail. -/
theorem failsWith (h : Lockstep p q n m r r₁ r₂ s) (e : Diagnostic) :
    Lockstep p q n m r (throw e) (throw e) s :=
  fun regular a s' read => ⟨(h regular a s' read).1, fun _ _ =>
    .error e (Site.around_cache.trans Site.around_cache.symm)⟩

theorem failsAt (h : Lockstep p q n m r r₁ r₂ s) (pos : Nat) (problem : Problem) :
    Lockstep p q n m r (Reader.failAt pos problem) (Reader.failAt pos problem) s :=
  h.failsWith ⟨problem, pos⟩

theorem fails (h : Lockstep p q n m r r₁ r₂ s) (inside : s.token.kind ≠ .endOfText)
    (problem : Problem) :
    Lockstep p q n m r (Reader.fail problem) (Reader.fail problem) s := by
  intro regular a s' read
  obtain ⟨moved, agree⟩ := h.failsAt s.token.pos problem regular a s' read
  refine ⟨moved, fun some cache => ?_⟩
  have step := agree some cache
  rw [Site.around_inside inside, Site.around_inside inside] at step ⊢
  exact step

theorem check (x y : Except Diagnostic α) :
    Lockstep p q 0 m (Reader.check x) (Reader.check y) (Reader.check y) s := by
  cases x with
  | error e => exact .refuses nofun
  | ok a =>
      cases y with
      | ok b => exact .pure a b
      | error e => exact (pure a a).failsWith e

theorem ite {c : Prop} [Decidable c] (hr : c → Lockstep p q n m r r₁ r₂ s)
    (hr' : ¬ c → Lockstep p q n m r' r₁' r₂' s) :
    Lockstep p q n m (if c then r else r') (if c then r₁ else r₁') (if c then r₂ else r₂') s := by
  split
  · exact hr ‹c›
  · exact hr' ‹¬ c›

/-- The same token is looked at, unless the readers may part here. -/
theorem look (h : Lockstep p q n m r r₁ r₂ s) (some : s.token.kind = .endOfText → 1 ≤ n + m)
    (alone : r' s = r s)
    (first : s.token.kind ≠ .endOfText →
      ∀ cache, r₁' (p.around cache s) = r₁ (p.around cache s))
    (second : s.token.kind ≠ .endOfText →
      ∀ cache, r₂' (q.around cache s) = r₂ (q.around cache s)) :
    Lockstep p q n m r' r₁' r₂' s := by
  intro regular a s' read
  obtain ⟨moved, agree⟩ := h regular a s' (alone.symm.trans read)
  refine ⟨moved, fun enough cache => ?_⟩
  have inside : s.token.kind ≠ .endOfText := by
    intro atEnd
    have fewer := moved.fewer
    rw [State.ahead_of_atEnd atEnd] at fewer
    have := some atEnd
    omega
  rw [first inside, second inside]
  exact agree enough cache

theorem tokenInside {f f₁ f₂ : Token → Reader β} (inside : s.token.kind ≠ .endOfText)
    (h : Lockstep p q n m (f s.token) (f₁ s.token) (f₂ s.token) s) :
    Lockstep p q n m (Reader.token >>= f) (Reader.token >>= f₁) (Reader.token >>= f₂) s := by
  refine h.look (fun atEnd => absurd atEnd inside) rfl (fun inside cache => ?_)
    fun inside cache => ?_
  · show f₁ (p.around cache s).token _ = _
    rw [Site.around_inside inside]
  · show f₂ (q.around cache s).token _ = _
    rw [Site.around_inside inside]

theorem isAtInside {f f₁ f₂ : Bool → Reader β} {kind : TokenKind}
    (inside : s.token.kind ≠ .endOfText)
    (h : Lockstep p q n m (f (s.token.kind == kind)) (f₁ (s.token.kind == kind))
      (f₂ (s.token.kind == kind)) s) :
    Lockstep p q n m (Reader.isAt kind >>= f) (Reader.isAt kind >>= f₁)
      (Reader.isAt kind >>= f₂) s := by
  have seen : Lockstep p q n m (Reader.token >>= fun t => f (t.kind == kind))
      (Reader.token >>= fun t => f₁ (t.kind == kind))
      (Reader.token >>= fun t => f₂ (t.kind == kind)) s := .tokenInside inside h
  exact seen

theorem token {f f₁ f₂ : Token → Reader β}
    (h : Lockstep p q n m (f s.token) (f₁ s.token) (f₂ s.token) s) (some : 1 ≤ n + m) :
    Lockstep p q n m (Reader.token >>= f) (Reader.token >>= f₁) (Reader.token >>= f₂) s := by
  by_cases atEnd : s.token.kind = .endOfText
  · exact h.look (fun _ => some) rfl (absurd atEnd) (absurd atEnd)
  · exact .tokenInside atEnd h

theorem isAt {f f₁ f₂ : Bool → Reader β} {kind : TokenKind}
    (h : Lockstep p q n m (f (s.token.kind == kind)) (f₁ (s.token.kind == kind))
      (f₂ (s.token.kind == kind)) s) (some : 1 ≤ n + m) :
    Lockstep p q n m (Reader.isAt kind >>= f) (Reader.isAt kind >>= f₁)
      (Reader.isAt kind >>= f₂) s := by
  have seen : Lockstep p q n m (Reader.token >>= fun t => f (t.kind == kind))
      (Reader.token >>= fun t => f₁ (t.kind == kind))
      (Reader.token >>= fun t => f₂ (t.kind == kind)) s := .token h some
  exact seen

/-- At no end is there a token of the kind. -/
theorem isAtOther {f f₁ f₂ : Bool → Reader β} {kind : TokenKind} (hp : p.first.kind ≠ kind)
    (hq : q.first.kind ≠ kind) (real : kind ≠ .endOfText)
    (h : Lockstep p q n m (f (s.token.kind == kind)) (f₁ (s.token.kind == kind))
      (f₂ (s.token.kind == kind)) s) :
    Lockstep p q n m (Reader.isAt kind >>= f) (Reader.isAt kind >>= f₁)
      (Reader.isAt kind >>= f₂) s := by
  have same : ∀ {p : Site} (cache : RecordCache), p.first.kind ≠ kind →
      ((p.around cache s).token.kind == kind) = (s.token.kind == kind) := by
    intro p cache other
    by_cases atEnd : s.token.kind = .endOfText
    · rw [Site.around_atEnd atEnd, atEnd, beq_false_of_ne other, beq_false_of_ne real.symm]
    · rw [Site.around_inside atEnd]
  intro regular a s' read
  obtain ⟨moved, agree⟩ := h regular a s' read
  refine ⟨moved, fun enough cache => ?_⟩
  show InStep p q s' (f₁ ((p.around cache s).token.kind == kind) _)
    (f₂ ((q.around cache s).token.kind == kind) _)
  rw [same cache hp, same cache hq]
  exact agree enough cache

theorem next (inside : s.token.kind ≠ .endOfText) :
    Lockstep p q 1 0 Reader.next Reader.next Reader.next s := by
  have moves := Place.Follows.next (p := .atEnd 0 none) inside
  have goes : ∀ (p : Site) (s' : State) (cache : RecordCache), s.Regular → Reader.next s = .ok () s' →
      Reader.next (p.around cache s) = .ok () (p.around cache s') := by
    intro p s' cache regular read
    obtain ⟨t, rest, before⟩ := s
    rw [Site.around_inside inside]
    cases rest with
    | failed e => cases read
    | token u rest =>
        cases read
        have word : u.kind ≠ .endOfText := regular.words u (by simp [TokenRun.tokens])
        rw [Site.around_inside word]
        rfl
    | done pos =>
        cases read
        rw [Site.around_atEnd rfl]
        obtain ⟨run, token, behind, opens, -, -⟩ := p
        cases opens <;> rfl
  intro regular u s' read
  refine ⟨(moves regular u s' read).1, fun _ cache => ?_⟩
  rw [goes p s' cache regular read, goes q s' cache regular read]
  exact .ok () cache

theorem expect {kind : TokenKind} {problem : Problem} {f f₁ f₂ : Unit → Reader β}
    (real : kind ≠ .endOfText)
    (h : s.token.kind = kind → Lockstep p q n m (f ()) (f₁ ()) (f₂ ()) s) :
    Lockstep p q n m (Reader.expect kind problem >>= f) (Reader.expect kind problem >>= f₁)
      (Reader.expect kind problem >>= f₂) s := by
  by_cases found : s.token.kind = kind
  · have inside : s.token.kind ≠ .endOfText := found ▸ real
    have here : ∀ (p : Site) cache, (p.around cache s).token.kind = kind := by
      intro p cache
      rw [Site.around_inside inside, found]
    refine (h found).look (fun atEnd => absurd atEnd inside) (bind_expect found) ?_ ?_
    · exact fun _ cache => bind_expect (here p cache)
    · exact fun _ cache => bind_expect (here q cache)
  · refine .refuses fun a s' read => ?_
    rw [expect_fails found] at read
    cases read

theorem skip {kind : TokenKind} {problem : Problem} (real : kind ≠ .endOfText) :
    Lockstep p q 1 0 (Reader.skip kind problem) (Reader.skip kind problem)
      (Reader.skip kind problem) s :=
  .expect real fun found => .next (found ▸ real)

theorem identifier {f f₁ f₂ : String → Reader β}
    (h : s.token.kind = .identifier → ∀ name, Lockstep p q n m (f name) (f₁ name) (f₂ name) s) :
    Lockstep p q n m (Reader.identifier >>= f) (Reader.identifier >>= f₁)
      (Reader.identifier >>= f₂) s := by
  simp only [Reader.identifier, bind_assoc]
  refine .expect (by decide) fun found => .tokenInside (by simp [found]) ?_
  exact .value (h found _)

/-- Another token of the text is put in the place of the one that is looked at. -/
theorem retoken {t : Token} {f f₁ f₂ : PUnit → Reader β} (inside : s.token.kind ≠ .endOfText)
    (word : t.kind ≠ .endOfText)
    (h : Lockstep p q n m (f ⟨⟩) (f₁ ⟨⟩) (f₂ ⟨⟩) { s with token := t }) :
    Lockstep p q n m ((modify fun s => { s with token := t } : Reader PUnit) >>= f)
      ((modify fun s => { s with token := t } : Reader PUnit) >>= f₁)
      ((modify fun s => { s with token := t } : Reader PUnit) >>= f₂) s := by
  intro regular a s' read
  obtain ⟨moved, agree⟩ := h ⟨regular.words, fun atEnd => absurd atEnd word⟩ a s' read
  have ahead : State.ahead { s with token := t } = s.ahead :=
    (State.ahead_of_inside word).trans (State.ahead_of_inside inside).symm
  refine ⟨{ moved with fewer := ahead ▸ moved.fewer }, fun enough cache => ?_⟩
  have step := agree enough cache
  rw [Site.around_inside word, Site.around_inside word] at step
  rw [Site.around_inside inside, Site.around_inside inside]
  exact step

/-- However many tokens stand behind, there are steps enough for those ahead. -/
theorem remaining {f f₁ f₂ : Nat → Reader β}
    (h : ∀ k k₁ k₂, s.ahead ≤ k → k ≤ k₁ → k ≤ k₂ → Lockstep p q n m (f k) (f₁ k₁) (f₂ k₂) s) :
    Lockstep p q n m (Reader.remaining >>= f) (Reader.remaining >>= f₁)
      (Reader.remaining >>= f₂) s := by
  intro regular a s' read
  have counts := fun k k₁ k₂ enough le₁ le₂ => h k k₁ k₂ enough le₁ le₂ regular a s'
  refine ⟨(counts _ _ _ s.ahead_le (Nat.le_refl _) (Nat.le_refl _) read).1, fun enough cache => ?_⟩
  have le₁ := Nat.add_le_add_right (p.length_le_around cache regular) 1
  have le₂ := Nat.add_le_add_right (q.length_le_around cache regular) 1
  exact (counts _ _ _ s.ahead_le le₁ le₂ read).2 enough cache

theorem recordType (shape shape' : List Property) (pos pos' : Nat) :
    Lockstep p q 0 m (Reader.recordType shape pos) (Reader.recordType shape' pos')
      (Reader.recordType shape' pos') s := by
  intro regular r s' read
  have moves := Place.Follows.recordType (p := .atEnd 0 none) (m := 0) shape pos regular r s' read
  refine ⟨moves.1, fun _ cache => ?_⟩
  have stays : ∀ (p : Site) cache, p.around cache s' = p.around cache s := by
    intro p cache
    cases old : s.cache.getOrCreate shape with
    | error e => cases (recordType_refused old).symm.trans read
    | ok found =>
        cases (recordType_made old).symm.trans read
        rfl
  have looked : ∀ p : Site, (p.around cache s).cache.getOrCreate shape' =
      cache.getOrCreate shape' := fun p => by rw [Site.around_cache]
  cases made : cache.getOrCreate shape' with
  | ok found =>
      have here : ∀ p : Site, Reader.recordType shape' pos' (p.around cache s) =
          .ok found.1 (p.around found.2 s') := by
        intro p
        rw [recordType_made ((looked p).trans made), Site.around_with_cache, stays]
      rw [here p, here q]
      exact .ok found.1 found.2
  | error e =>
      rw [recordType_refused ((looked p).trans made), recordType_refused ((looked q).trans made)]
      exact .error _ (Site.around_cache.trans Site.around_cache.symm)

/-- Every item passes a token, and so the steps do not run out before the tokens do. -/
theorem itemsUpTo {item item₁ item₂ : Reader α} (h : ∀ s, Lockstep p q 1 1 item item₁ item₂ s)
    {k k₁ k₂ : Nat} (enough : s.ahead ≤ k) (le₁ : k ≤ k₁) (le₂ : k ≤ k₂) :
    Lockstep p q 1 1 (Reader.itemsUpTo item k) (Reader.itemsUpTo item₁ k₁)
      (Reader.itemsUpTo item₂ k₂) s := by
  induction k generalizing k₁ k₂ s with
  | zero =>
      intro regular as s' read
      have one : Lockstep p q 1 1 (do return [← item]) (do return [← item₁]) (do return [← item₂]) s :=
        (h s).bind (fun a b _ _ => .pure [a] [b]) (Nat.le_refl 1) (Nat.le_refl 1)
      have fewer := (one regular as s' read).1.fewer
      omega
  | succ k ih =>
      obtain ⟨k₁, rfl⟩ := Nat.exists_eq_add_of_le' (Nat.lt_of_lt_of_le k.succ_pos le₁)
      obtain ⟨k₂, rfl⟩ := Nat.exists_eq_add_of_le' (Nat.lt_of_lt_of_le k.succ_pos le₂)
      refine (h s).bind (v := 0) (fun a b s₁ moved => ?_) (Nat.le_refl 1) (Nat.le_refl 1)
      refine .isAt (.ite (fun comma => ?_) fun _ => .pure _ _) (Nat.le_refl 1)
      have inside : s₁.token.kind ≠ .endOfText := by simp [beq_iff_eq.mp comma]
      refine .weaken (.step (.next inside) fun _ _ s₂ moved₂ => ?_) (Nat.zero_le 1) (Nat.le_refl 1)
      have fewer := moved.fewer
      have fewer₂ := moved₂.fewer
      have later := ih (s := s₂) (by omega) (Nat.le_of_succ_le_succ le₁) (Nat.le_of_succ_le_succ le₂)
      exact later.bind (fun as bs _ _ => .pure _ _) (Nat.le_refl 1) (Nat.zero_le _)

theorem items {item item₁ item₂ : Reader α} (h : ∀ s, Lockstep p q 1 1 item item₁ item₂ s) :
    Lockstep p q 1 1 (Reader.items item) (Reader.items item₁) (Reader.items item₂) s :=
  .remaining fun _ _ _ => itemsUpTo h

end Lockstep

/-! ## The grammar -/

/-- Names mean the same, though there may be another receiver. -/
structure Env.SameNames (env env' : Env) : Prop where
  symbols : env.symbols = env'.symbols
  externals : env.externals = env'.externals

theorem Env.SameNames.symbol? {env env' : Env} (h : env.SameNames env') (name : String) :
    env.symbol? name = env'.symbol? name := by
  rw [Env.symbol?, Env.symbol?, h.symbols, h.externals]

/-- At the sites the other parts go in step with the first one, which is read by itself. -/
def InLockstep (p q : Site) (m : Nat) (part part₁ part₂ : Part) : Prop :=
  ∀ env env' s, env.SameNames env' → Lockstep p q 1 m (part env) (part₁ env') (part₂ env') s

section Grammar

open Lockstep

variable {operand operand₁ operand₂ expression expression₁ expression₂ : Part} {env env' : Env}

theorem InLockstep.weaken {l : Nat} (h : InLockstep p q l expression expression₁ expression₂)
    (le : l ≤ m) : InLockstep p q m expression expression₁ expression₂ :=
  fun env env' s names => (h env env' s names).weaken (Nat.le_refl 1) le

theorem tooDeep_lockstep : InLockstep p q m tooDeep expression₁ expression₂ :=
  fun _ _ _ _ => .fail _

theorem argumentList_lockstep {r r₁ r₂ : Reader Operand} (h : ∀ s, Lockstep p q 1 1 r r₁ r₂ s)
    (s : State) :
    Lockstep p q 1 0 (argumentList r) (argumentList r₁) (argumentList r₂) s := by
  have close : ∀ (args args' : List Operand) (s : State), Lockstep p q 1 0
      (do skip .closeParen .closeParenOrCommaExpected; return args)
      (do skip .closeParen .closeParenOrCommaExpected; return args')
      (do skip .closeParen .closeParenOrCommaExpected; return args') s :=
    fun args args' s => .step (.skip nofun) fun _ _ _ _ => .pure args args'
  refine .step (.skip nofun) fun _ _ s₁ _ => .loose (.isAt (.ite (fun _ => ?_) fun _ => ?_)
    (Nat.le_refl 1))
  · exact .value (close [] [] s₁)
  · exact (Lockstep.items h).stepBefore fun args args' s₂ _ => close args args' s₂

variable (he : InLockstep p q 1 expression expression₁ expression₂) (names : env.SameNames env')
include he names

theorem memberAccess_lockstep (t t' : Ty) (target target' : Option Operand) (s : State) :
    Lockstep p q 1 0 (memberAccess expression env t target)
      (memberAccess expression₁ env' t' target') (memberAccess expression₂ env' t' target') s := by
  have called : ∀ (env env' : Env) (f g : List Operand → Except Diagnostic Operand) (s : State),
      env.SameNames env' → Lockstep p q 1 0
        (do let args ← argumentList (expression env); check (f args))
        (do let args ← argumentList (expression₁ env'); check (g args))
        (do let args ← argumentList (expression₂ env'); check (g args)) s :=
    fun env env' f g s names =>
      (argumentList_lockstep (fun s => he env env' s names) s).step fun _ _ _ _ => .check _ _
  refine .token (.identifier fun found name => ?_) (Nat.le_refl 1)
  refine .step (.next (by simp [found])) fun _ _ s₁ _ => ?_
  refine .isAtOther p.noCall q.noCall nofun (.ite (fun _ => .check _ _) fun _ => .loose ?_)
  -- a call is an operation on items at the one place, and of a method at the other
  split <;> split
  all_goals exact called _ _ _ _ s₁ ⟨names.symbols, names.externals⟩

theorem elementAccess_lockstep (target target' : Operand) (s : State) :
    Lockstep p q 1 0 (elementAccess expression env target)
      (elementAccess expression₁ env' target') (elementAccess expression₂ env' target') s := by
  refine .token (.step (.skip nofun) fun _ _ _ _ => .loose ?_) (Nat.le_refl 1)
  refine (Lockstep.items fun s => he env env' s names).stepBefore fun _ _ _ _ => ?_
  exact .step (.skip nofun) fun _ _ _ _ => .check _ _

/-- Members and indexes each pass a token, and none opens at the end. -/
theorem postfixesUpTo_lockstep (o o' : Operand) (s : State) {k k₁ k₂ : Nat} (enough : s.ahead ≤ k)
    (le₁ : k ≤ k₁) (le₂ : k ≤ k₂) :
    Lockstep p q 0 0 (postfixesUpTo expression env k o) (postfixesUpTo expression₁ env' k₁ o')
      (postfixesUpTo expression₂ env' k₂ o') s := by
  induction k generalizing k₁ k₂ o o' s with
  | zero =>
      have atEnd : s.token.kind = .endOfText := State.atEnd_of_ahead (Nat.le_zero.mp enough)
      refine .standing rfl (b := o') (fun cache => postfixesUpTo_ends ?_ env' k₁ o')
        fun cache => postfixesUpTo_ends ?_ env' k₂ o'
      · rw [Site.around_atEnd atEnd]
        exact p.ends.noMember
      · rw [Site.around_atEnd atEnd]
        exact q.ends.noMember
  | succ k ih =>
      obtain ⟨k₁, rfl⟩ := Nat.exists_eq_add_of_le' (Nat.lt_of_lt_of_le k.succ_pos le₁)
      obtain ⟨k₂, rfl⟩ := Nat.exists_eq_add_of_le' (Nat.lt_of_lt_of_le k.succ_pos le₂)
      have later : ∀ (o o' : Operand) (s' : State), s'.ahead + 1 ≤ s.ahead →
          Lockstep p q 0 0 (postfixesUpTo expression env k o)
            (postfixesUpTo expression₁ env' k₁ o') (postfixesUpTo expression₂ env' k₂ o') s' :=
        fun o o' s' fewer =>
          ih o o' s' (by omega) (Nat.le_of_succ_le_succ le₁) (Nat.le_of_succ_le_succ le₂)
      refine .isAtOther p.ends.noMember.1 q.ends.noMember.1 nofun
        (.ite (fun dot => ?_) fun _ => ?_)
      · have inside : s.token.kind ≠ .endOfText := by simp [beq_iff_eq.mp dot]
        refine .loose (.step (.next inside) fun _ _ s₁ moved => .loose ?_)
        refine (memberAccess_lockstep he names _ _ _ _ s₁).step fun o o' s₂ moved₂ => later o o' s₂ ?_
        have fewer := moved.fewer
        have fewer₂ := moved₂.fewer
        omega
      · refine .isAtOther p.ends.noMember.2 q.ends.noMember.2 nofun
          (.ite (fun bracket => ?_) fun _ => .pure o o')
        exact .loose ((elementAccess_lockstep he names o o' s).step fun o o' s₁ moved =>
          later o o' s₁ moved.fewer)

theorem parenthesized_lockstep (inside : s.token.kind ≠ .endOfText) :
    Lockstep p q 1 0 (parenthesized expression env) (parenthesized expression₁ env')
      (parenthesized expression₂ env') s :=
  .step (.next inside) fun _ _ _ _ => .loose ((he env env' _ names).stepBefore fun o o' _ _ =>
    .step (.skip nofun) fun _ _ _ _ => .pure o o')

theorem iif_lockstep (inside : s.token.kind ≠ .endOfText) :
    Lockstep p q 1 0 (iif expression env) (iif expression₁ env') (iif expression₂ env') s := by
  refine .token (.step (.next inside) fun _ _ s₁ _ => .loose ?_) (Nat.le_refl 1)
  refine (argumentList_lockstep (fun s => he env env' s names) s₁).step fun args args' s₂ _ => ?_
  split
  · split
    · exact .check _ _
    · exact (Lockstep.check _ (.ok Operand.nullLiteral)).failsAt _ _
  · exact .failAt _ _

/-- Behind a property there is something more. -/
theorem projectionItem_lockstep (s : State) :
    Lockstep p q 1 1 (projectionItem expression env) (projectionItem expression₁ env')
      (projectionItem expression₂ env') s := by
  refine .token (.bind (v := 0) (he env env' s names) (fun o o' s₁ _ => ?_) (Nat.le_refl 1)
    (Nat.le_refl 1)) (Nat.le_add_left 1 1)
  refine .token (.ite (fun as => ?_) fun _ => ?_) (Nat.le_refl 1)
  · have inside : s₁.token.kind ≠ .endOfText := by
      intro atEnd
      simp [Token.isWord, atEnd] at as
    refine .loose (.step (.next inside) fun _ _ _ _ => .identifier fun found _ => ?_)
    exact .loose (.step (.next (by simp [found])) fun _ _ _ _ => .pure _ _)
  · split
    · split
      · exact .pure _ _
      · rename_i name _ _ _
        exact (Lockstep.pure (name, o.expr) (name, o.expr)).failsAt _ _
    · exact .failAt _ _

theorem projection_lockstep (inside : s.token.kind ≠ .endOfText) :
    Lockstep p q 1 0 (projection expression env) (projection expression₁ env')
      (projection expression₂ env') s := by
  refine .token (.step (.next inside) fun _ _ _ _ => .loose (.step (.skip nofun) fun _ _ _ _ =>
    .loose ?_)) (Nat.le_refl 1)
  refine (Lockstep.items (projectionItem_lockstep he names)).stepBefore fun _ _ _ _ => ?_
  exact .step (.skip nofun) fun _ _ _ _ => .still (.recordType _ _ _ _) fun _ _ _ _ => .pure _ _

theorem typeAccess_lockstep (t : Predefined) (inside : s.token.kind ≠ .endOfText) :
    Lockstep p q 1 0 (typeAccess expression env t) (typeAccess expression₁ env' t)
      (typeAccess expression₂ env' t) s := by
  have called : ∀ (pos : Nat) (t t' : Ty) (s : State), Lockstep p q 0 0
      (do let args ← argumentList (expression env); check (Operand.construct t args pos))
      (do let args ← argumentList (expression₁ env'); check (Operand.construct t' args pos))
      (do let args ← argumentList (expression₂ env'); check (Operand.construct t' args pos)) s :=
    fun _ _ _ s => .loose ((argumentList_lockstep (fun s => he env env' s names) s).step
      fun _ _ _ _ => .check _ _)
  have member : ∀ (t t' : Ty) (s : State), Lockstep p q 0 0
      (do skip .dot .dotOrOpenParenExpected; memberAccess expression env t none)
      (do skip .dot .dotOrOpenParenExpected; memberAccess expression₁ env' t' none)
      (do skip .dot .dotOrOpenParenExpected; memberAccess expression₂ env' t' none) s :=
    fun t t' _ => .loose (.step (.skip nofun) fun _ _ s' _ =>
      .loose (memberAccess_lockstep he names t t' none none s'))
  have form : ∀ {s : State} (pos : Nat), s.token.kind ≠ .endOfText →
      Lockstep p q 1 0 (typeAccess.nullableForm pos (.predefined t))
        (typeAccess.nullableForm pos (.predefined t))
        (typeAccess.nullableForm pos (.predefined t)) s :=
    fun pos inside => .ite (fun _ => .refuses nofun)
      fun _ => .step (.next inside) fun _ _ _ _ => .pure _ _
  refine .token (.step (.next inside) fun _ _ s₁ _ => ?_) (Nat.le_refl 1)
  by_cases atEnd : s₁.token.kind = .endOfText
  · -- a type alone is no expression
    refine .refuses fun a s' read => ?_
    obtain ⟨marked, s₂, looked, read⟩ := exists_of_bind read
    cases looked
    rw [atEnd, if_neg (by decide)] at read
    obtain ⟨form, s₂, plain, read⟩ := exists_of_bind read
    cases plain
    obtain ⟨called, s₂, looked, read⟩ := exists_of_bind read
    cases looked
    rw [atEnd, if_neg (by decide)] at read
    obtain ⟨u, s₂, skipped, -⟩ := exists_of_bind read
    cases (expect_fails (by rw [atEnd]; nofun)).symm.trans skipped
  · refine .isAtInside atEnd (.ite (fun marked => ?_) fun _ => .value ?_)
    · refine .loose (.step (form _ atEnd) fun t t' s₂ _ => ?_)
      exact .isAtOther p.noCall q.noCall nofun
        (.ite (fun _ => called _ _ _ s₂) fun _ => member _ _ s₂)
    · exact .isAtOther p.noCall q.noCall nofun
        (.ite (fun _ => called _ _ _ s₁) fun _ => member _ _ s₁)

theorem symbol_lockstep (x : External) (inside : s.token.kind ≠ .endOfText) :
    Lockstep p q 1 0 (symbol expression env x) (symbol expression₁ env' x)
      (symbol expression₂ env' x) s := by
  refine .token ?_ (Nat.le_refl 1)
  cases x with
  | symbols table => exact .refuses nofun
  | value | expr =>
    refine .value (.step (.next inside) fun _ _ s₁ _ => ?_)
    split
    · refine .isAtOther p.noCall q.noCall nofun (.ite (fun _ => .loose ?_) fun _ => .pure _ _)
      exact (argumentList_lockstep (fun s => he env env' s names) s₁).step fun _ _ _ _ => .check _ _
    · exact .pure _ _

theorem named_lockstep (inside : s.token.kind ≠ .endOfText) :
    Lockstep p q 1 0 (named expression env) (named expression₁ env') (named expression₂ env') s := by
  have word : ∀ o o' : Operand, Lockstep p q 1 0 (do next; return o) (do next; return o')
      (do next; return o') s := fun o o' => .step (.next inside) fun _ _ _ _ => .pure o o'
  refine .token (.ite (fun _ => word _ _) fun _ => .ite (fun _ => word _ _) fun _ =>
    .ite (fun _ => word _ _) fun _ => .ite (fun _ => ?_) fun _ => ?_) (Nat.le_refl 1)
  · cases env.receiver with
    | none => exact .fail _
    | some i =>
      cases env'.receiver with
      | some i' => exact word _ _
      | none => exact (word _ .nullLiteral).fails inside _
  refine .ite (fun _ => iif_lockstep he names inside) fun _ =>
    .ite (fun _ => projection_lockstep he names inside) fun _ => ?_
  rw [← names.symbol?]
  cases Predefined.ofName? s.token.text with
  | some t => exact typeAccess_lockstep he names t inside
  | none =>
    cases env.symbol? s.token.text with
    | some x => exact symbol_lockstep he names x inside
    | none =>
      cases env.receiver with
      | none => exact .fail _
      | some i =>
        cases env'.receiver with
        | some i' => exact memberAccess_lockstep he names _ _ _ _ s
        | none =>
          have member := memberAccess_lockstep he names i.ty i.ty
            (some (.plain (.parameter i))) (some (.plain (.parameter i))) s
          exact member.fails inside _

omit he names in
theorem literal_lockstep (x : Except Diagnostic Operand) (inside : s.token.kind ≠ .endOfText) :
    Lockstep p q 1 0 (literal x) (literal x) (literal x) s := by
  cases x with
  | error e => exact .refuses nofun
  | ok o =>
    show Lockstep p q 1 0 (do next; return o) (do next; return o) (do next; return o) s
    exact .step (.next inside) fun _ _ _ _ => .pure o o

theorem primary_lockstep (s : State) :
    Lockstep p q 1 0 (primary expression env) (primary expression₁ env')
      (primary expression₂ env') s := by
  have start : Lockstep p q 1 0 (primaryStart expression env) (primaryStart expression₁ env')
      (primaryStart expression₂ env') s := by
    refine .token ?_ (Nat.le_refl 1)
    split
    · exact named_lockstep he names (by simp [*])
    · exact literal_lockstep _ (by simp [*])
    · exact literal_lockstep _ (by simp [*])
    · exact literal_lockstep _ (by simp [*])
    · exact parenthesized_lockstep he names (by simp [*])
    · exact .fail _
  exact start.step fun o o' s₁ _ => .remaining fun _ _ _ => postfixesUpTo_lockstep he names o o' s₁

omit names in
theorem unaryOf_lockstep (ho : InLockstep p q 0 operand operand₁ operand₂) :
    InLockstep p q 0 (unaryOf operand expression) (unaryOf operand₁ expression₁)
      (unaryOf operand₂ expression₂) := by
  intro env env' s names
  refine .token ?_ (Nat.le_refl 1)
  split
  · exact primary_lockstep he names s
  · rename_i op found
    have inside : s.token.kind ≠ .endOfText := by
      intro atEnd
      simp [Token.unaryOp?, Token.isWord, atEnd] at found
    refine .step (.next inside) fun _ _ s₁ _ => .loose (.token (.ite (fun number => ?_)
      fun _ => ?_) (Nat.le_refl 1))
    · have inside : s₁.token.kind ≠ .endOfText := by
        intro atEnd
        simp [isNumber, atEnd] at number
      exact .retoken inside inside (primary_lockstep he names _)
    · exact (ho env env' s₁ names).step fun _ _ _ _ => .check _ _

omit he names

/-- Each operator passes a token, and none stands at the end. -/
theorem joinUpTo_lockstep {r r₁ r₂ : Reader Operand} (h : ∀ s, Lockstep p q 1 0 r r₁ r₂ s)
    (level : Precedence) (left left' : Operand) (s : State) {k k₁ k₂ : Nat}
    (enough : s.ahead ≤ k) (le₁ : k ≤ k₁) (le₂ : k ≤ k₂) :
    Lockstep p q 0 0 (joinUpTo level r k left) (joinUpTo level r₁ k₁ left')
      (joinUpTo level r₂ k₂ left') s := by
  have ends : ∀ (left left' : Operand) (s : State), s.token.kind = .endOfText → ∀ k k₁ k₂,
      Lockstep p q 0 0 (joinUpTo level r k left) (joinUpTo level r₁ k₁ left')
        (joinUpTo level r₂ k₂ left') s := by
    intro left left' s atEnd k k₁ k₂
    refine .standing (joinUpTo_ends ?_ r k left) (b := left')
      (fun cache => joinUpTo_ends ?_ r₁ k₁ left') fun cache => joinUpTo_ends ?_ r₂ k₂ left'
    · simp [Token.precedence?, Token.isWord, atEnd]
    · rw [Site.around_atEnd atEnd]
      exact p.noOperator level
    · rw [Site.around_atEnd atEnd]
      exact q.noOperator level
  induction k generalizing k₁ k₂ left left' s with
  | zero => exact ends left left' s (State.atEnd_of_ahead (Nat.le_zero.mp enough)) 0 k₁ k₂
  | succ k ih =>
      obtain ⟨k₁, rfl⟩ := Nat.exists_eq_add_of_le' (Nat.lt_of_lt_of_le k.succ_pos le₁)
      obtain ⟨k₂, rfl⟩ := Nat.exists_eq_add_of_le' (Nat.lt_of_lt_of_le k.succ_pos le₂)
      by_cases atEnd : s.token.kind = .endOfText
      · exact ends left left' s atEnd _ _ _
      · refine .tokenInside atEnd (.ite (fun _ => .loose ?_) fun _ => .pure left left')
        refine .step (.next atEnd) fun _ _ s₁ moved => .loose ((h s₁).step ?_)
        intro right right' s₂ moved₂
        refine .still (.check _ _) fun o o' s₃ moved₃ => ih o o' s₃ ?_
          (Nat.le_of_succ_le_succ le₁) (Nat.le_of_succ_le_succ le₂)
        have fewer := moved.fewer
        have fewer₂ := moved₂.fewer
        have fewer₃ := moved₃.fewer
        omega

theorem joined_lockstep {r r₁ r₂ : Reader Operand} (h : ∀ s, Lockstep p q 1 0 r r₁ r₂ s)
    (level : Precedence) (s : State) :
    Lockstep p q 1 0 (joined level r) (joined level r₁) (joined level r₂) s :=
  (h s).step fun left left' s₁ _ => .remaining fun _ _ _ =>
    joinUpTo_lockstep h level left left' s₁

theorem binaryOf_lockstep (ho : InLockstep p q 0 operand operand₁ operand₂) :
    InLockstep p q 0 (fun env => binaryOf (operand env)) (fun env => binaryOf (operand₁ env))
      (fun env => binaryOf (operand₂ env)) :=
  fun env env' s names => joined_lockstep (joined_lockstep (joined_lockstep (joined_lockstep
    (joined_lockstep (fun s => ho env env' s names) _) _) _) _) _ s

/-- A choice at the end of the part is seen, where it can be seen from the sites. -/
theorem expressionOf_lockstep (few : m ≤ 1) (seen : m = 1 ∨ p.NoChoice ∧ q.NoChoice)
    (ho : InLockstep p q 0 operand operand₁ operand₂)
    (he : InLockstep p q m expression expression₁ expression₂) :
    InLockstep p q m (expressionOf operand expression) (expressionOf operand₁ expression₁)
      (expressionOf operand₂ expression₂) := by
  intro env env' s names
  have choice : ∀ (o o' : Operand) (pos : Nat) (s : State), Lockstep p q 0 m
      (do
        if ← isAt .question then
          next
          let whenTrue ← expression env
          skip .colon .colonExpected
          let whenFalse ← expression env
          check (Operand.conditional o whenTrue whenFalse pos)
        else return o)
      (do
        if ← isAt .question then
          next
          let whenTrue ← expression₁ env'
          skip .colon .colonExpected
          let whenFalse ← expression₁ env'
          check (Operand.conditional o' whenTrue whenFalse pos)
        else return o')
      (do
        if ← isAt .question then
          next
          let whenTrue ← expression₂ env'
          skip .colon .colonExpected
          let whenFalse ← expression₂ env'
          check (Operand.conditional o' whenTrue whenFalse pos)
        else return o') s := by
    intro o o' pos s
    have goes : (s.token.kind == .question) = true → Lockstep p q 0 m
        (do
          next
          let whenTrue ← expression env
          skip .colon .colonExpected
          let whenFalse ← expression env
          check (Operand.conditional o whenTrue whenFalse pos))
        (do
          next
          let whenTrue ← expression₁ env'
          skip .colon .colonExpected
          let whenFalse ← expression₁ env'
          check (Operand.conditional o' whenTrue whenFalse pos))
        (do
          next
          let whenTrue ← expression₂ env'
          skip .colon .colonExpected
          let whenFalse ← expression₂ env'
          check (Operand.conditional o' whenTrue whenFalse pos)) s := by
      intro marked
      have inside : s.token.kind ≠ .endOfText := by simp [beq_iff_eq.mp marked]
      refine .weaken (.step (.next inside) fun _ _ s₁ _ => ?_) (Nat.zero_le 1) (Nat.le_refl m)
      refine .weaken ((he.weaken few env env' s₁ names).stepBefore fun a a' s₂ _ => ?_)
        (Nat.zero_le 1) (Nat.le_refl m)
      refine .step (.skip nofun) fun _ _ s₃ _ => ?_
      refine (he env env' s₃ names).bind (v := 0) (fun b b' s₄ _ => .check _ _) (Nat.le_refl m)
        (Nat.zero_le _)
    rcases seen with rfl | ⟨hp, hq⟩
    · exact .isAt (.ite goes fun _ => .pure o o') (Nat.le_refl 1)
    · exact .isAtOther hp hq nofun (.ite goes fun _ => .pure o o')
  exact .token (.step (binaryOf_lockstep ho env env' s names) fun o o' s₁ _ => choice o o' _ s₁)
    (Nat.le_add_right 1 m)

/-- With any number of levels an expression and an operand are read in step, wherever as many levels
or more are left. -/
theorem levels_lockstep (few : m ≤ 1) (seen : m = 1 ∨ p.NoChoice ∧ q.NoChoice) (n k₁ k₂ : Nat) :
    InLockstep p q m (expressionAt n) (expressionAt (n + k₁)) (expressionAt (n + k₂)) ∧
      InLockstep p q 0 (operandAt n) (operandAt (n + k₁)) (operandAt (n + k₂)) := by
  induction n with
  | zero =>
      obtain ⟨operand₁, first⟩ := operandAt_eq (0 + k₁)
      obtain ⟨operand₂, second⟩ := operandAt_eq (0 + k₂)
      rw [first, second]
      exact ⟨tooDeep_lockstep, unaryOf_lockstep tooDeep_lockstep tooDeep_lockstep⟩
  | succ n ih =>
      rw [Nat.succ_add_eq_add_succ, Nat.succ_add_eq_add_succ]
      have he : InLockstep p q m (expressionAt (n + 1)) (expressionAt (n + k₁ + 1))
          (expressionAt (n + k₂ + 1)) := expressionOf_lockstep few seen ih.2 ih.1
      exact ⟨he, unaryOf_lockstep (he.weaken few) ih.2⟩

/-- Where no level is left at the sites, both readings stop at once. -/
theorem InLockstep.stopped (h : InLockstep p q m expression expression₁ expression₂) :
    InLockstep p q m expression tooDeep tooDeep := by
  intro env env' s names regular o s' read
  have moved := (h env env' s names regular o s' read).1
  have inside : s.token.kind ≠ .endOfText := by
    intro atEnd
    have fewer := moved.fewer
    rw [State.ahead_of_atEnd atEnd] at fewer
    omega
  exact (h env env' s names).fails inside _ regular o s' read

/-- An expression and an operand are read in step at sites where the same number of levels is left,
be it less than what they need. -/
theorem levels_lockstep_alike (few : m ≤ 1) (seen : m = 1 ∨ p.NoChoice ∧ q.NoChoice) (n l : Nat) :
    InLockstep p q m (expressionAt n) (expressionAt l) (expressionAt l) ∧
      InLockstep p q 0 (operandAt n) (operandAt l) (operandAt l) := by
  induction n generalizing l with
  | zero =>
      obtain ⟨operand, same⟩ := operandAt_eq l
      rw [same]
      exact ⟨tooDeep_lockstep, unaryOf_lockstep tooDeep_lockstep tooDeep_lockstep⟩
  | succ n ih =>
      cases l with
      | zero =>
          have he := (levels_lockstep few seen (n + 1) 0 0).1.stopped
          have ho := (levels_lockstep few seen n 0 0).2.stopped
          exact ⟨he, unaryOf_lockstep (he.weaken few) ho⟩
      | succ l =>
          have he : InLockstep p q m (expressionAt (n + 1)) (expressionAt (l + 1))
              (expressionAt (l + 1)) := expressionOf_lockstep few seen (ih l).2 (ih l).1
          exact ⟨he, unaryOf_lockstep (he.weaken few) (ih l).2⟩

end Grammar

end TypedExpr.Source
