import TypedExpr.Proofs.ConditionalSpellings
import TypedExpr.Proofs.MemberNames

/-! # Texts of projections

Between `new(` and `)` stand expressions, each with the word `as` and a name behind it. The reading
comes to what the expressions are by themselves, one after another, under the names as they are
written, and then to the record type of these names with the types of the expressions.
-/

namespace TypedExpr

/-! ## Names in any case -/

namespace Token

theorem opensIdentifier_toLower (c : Char) : opensIdentifier c.toLower = opensIdentifier c :=
  Text.of_capitals (P := fun d c => opensIdentifier d = opensIdentifier c) c
    (by decide +kernel) fun _ => rfl

theorem continuesIdentifier_toLower (c : Char) :
    continuesIdentifier c.toLower = continuesIdentifier c :=
  Text.of_capitals (P := fun d c => continuesIdentifier d = continuesIdentifier c) c
    (by decide +kernel) fun _ => rfl

end Token

namespace Source

open Token Reader

/-- The characters of an identifier without the sign before it. -/
def withoutSign : List Char → List Char
  | '@' :: c :: cs => c :: cs
  | cs => cs

/-- What an identifier names. -/
def plainName (w : String) : String := String.ofList (withoutSign w.toList)

theorem withoutSign_of_ne {c : Char} {cs : List Char} (other : c ≠ '@') :
    withoutSign (c :: cs) = c :: cs := by
  rw [withoutSign]
  rintro _ _ ⟨⟩
  exact absurd rfl other

theorem withoutSign_map_toLower (cs : List Char) :
    withoutSign (cs.map Char.toLower) = (withoutSign cs).map Char.toLower := by
  match cs with
  | [] => rfl
  | [c] => simp [withoutSign]
  | c :: d :: ds =>
      have sign : c.toLower = '@' ↔ c = '@' :=
        Text.of_capitals (P := fun d c => d = '@' ↔ c = '@') c (by decide +kernel) fun _ => .rfl
      by_cases opens : c = '@'
      · subst opens
        rfl
      · rw [withoutSign_of_ne opens, List.map_cons, withoutSign_of_ne (mt sign.mp opens)]

section Names

variable {w name : String}

theorem plainName_sameIgnoringCase (h : Text.sameIgnoringCase w name) :
    Text.sameIgnoringCase (plainName name) (plainName w) := by
  rw [Text.sameIgnoringCase_iff] at h ⊢
  simp only [plainName, String.toList_ofList, ← withoutSign_map_toLower, h]

/-- In any case of ASCII letters an identifier is one. -/
theorem IsIdentifier.ofCase (h : IsIdentifier name) (same : Text.sameIgnoringCase w name) :
    IsIdentifier w := by
  obtain ⟨c, cs, spelled, opens, continues⟩ := h
  have letters : w.toList.map Char.toLower = name.toList.map Char.toLower :=
    Text.sameIgnoringCase_iff.mp same
  rw [spelled, List.map_cons] at letters
  obtain ⟨d, ds, written, first, rest⟩ := List.map_eq_cons_iff.mp letters
  refine ⟨d, ds, written, ?_, fun x hx => ?_⟩
  · rwa [← opensIdentifier_toLower, first, opensIdentifier_toLower]
  · have small : x.toLower ∈ cs.map Char.toLower := rest ▸ List.mem_map_of_mem hx
    obtain ⟨y, hy, lower⟩ := List.mem_map.mp small
    rw [← continuesIdentifier_toLower, ← lower, continuesIdentifier_toLower]
    exact continues y hy

/-- A reader that asks for an identifier gets what it names. -/
theorem identifier_reads {pos : Nat} {rest : TokenRun} {cache : RecordCache} :
    identifier ⟨⟨.identifier, w, pos⟩, rest, cache⟩ =
      .ok (plainName w) ⟨⟨.identifier, w, pos⟩, rest, cache⟩ := by
  have named : identifier ⟨⟨.identifier, w, pos⟩, rest, cache⟩ =
      .ok (match w.toList with
        | '@' :: c :: cs => String.ofList (c :: cs)
        | _ => w) ⟨⟨.identifier, w, pos⟩, rest, cache⟩ := rfl
  rw [named, plainName, withoutSign.eq_def]
  split <;> simp_all

end Names

/-! ## Items -/

/-- A text with the name that a projection has for its value. -/
structure NamedText where
  text : String
  name : String

def NamedText.item (i : NamedText) : String := i.text ++ " as " ++ i.name

def itemsText (items : List NamedText) : String :=
  Text.joinWith ", " (items.map NamedText.item)

def projectionText (items : List NamedText) : String := "new(" ++ itemsText items ++ ")"

/-- The text is an expression, if enough levels are left, and the name is one. -/
structure NamedText.IsItem (env : Env) (i : NamedText) : Prop where
  text : ∃ n, Complete (expressionAt n (env.limited n)) i.text
  name : IsIdentifier i.name

/-- What an item is by itself. -/
def NamedText.alone (env : Env) (n : Nat) (i : NamedText) :
    EStateM Problem RecordCache (String × Expr) := do
  let o ← (expressionAt n env).alone i.text
  return (plainName i.name, o.expr)

/-- The record type of a shape. -/
def shapeAlone (shape : List Property) : EStateM Problem RecordCache RecordType := fun cache =>
  match cache.getOrCreate shape with
  | .ok (r, cache) => .ok r cache
  | .error e => .error (.invalidProjection e.message) cache

/-- What a projection is, from its items by themselves, one after another. -/
def projectionAlone (env : Env) (n : Nat) (items : List NamedText) :
    EStateM Problem RecordCache Operand := do
  let fields ← items.mapM (NamedText.alone env n)
  let r ← shapeAlone (fields.map fun (name, e) => ⟨name, e.ty⟩)
  return .plain (.newRecord r (fields.map (·.2)))

variable {env env' : Env} {n : Nat} {text : String} {cache : RecordCache} {front tail : List Char}
  {t u : Token} {r rest : TokenRun} {p : Site}

/-- With whatever number of levels left, an expression is at a site what it is by itself. -/
theorem Complete.anyLevel (complete : Complete (expressionAt n env) text)
    (names : env.SameNames env') (cuts : Cuts front text.toList (.token t rest))
    (noChoice : p.NoChoice) (l : Nat) (cache : RecordCache) :
    Meets (Lands p.after) ((expressionAt l env').alone text cache)
      (expressionAt l env' ⟨t, rest.followedBy p.behind, cache⟩) := by
  have ended : ∀ pos, (Site.atEnd pos).NoChoice := fun _ same => nomatch same
  exact complete.site ((levels_blind n).1 env) ((levels_blind l).1 env') cuts
    (fun pos s => (levels_lockstep_alike (Nat.zero_le 1) (.inr ⟨ended pos, noChoice⟩) n l).1
      env env' s names) cache

section Lists

variable {α β : Type} {item : Reader α} {m : EStateM Problem RecordCache α}
  {ms : EStateM Problem RecordCache (List α)} {s : State} {place : RecordCache → State}

/-- The last item of a list. -/
theorem Meets.lastItem (h : Meets (Lands place) (m cache) (item s))
    (last : ∀ cache, (place cache).token.kind ≠ .comma) (n : Nat) :
    Meets (Lands place) ((do let a ← m; return [a]) cache) (itemsUpTo item n s) := by
  cases n with
  | zero => exact h.bind fun _ _ => .ok rfl
  | succ n =>
      rw [itemsUpTo_succ]
      refine h.bind fun a cache => ?_
      rw [← bind_pure (following item n a), following_last (last cache)]
      exact .ok rfl

/-- An item of a list before a comma. -/
theorem Meets.moreItems {sign : Token} (h : Meets (Lands place) (m cache) (item s))
    (comma : sign.kind = .comma) (stops : ∀ cache, place cache = ⟨sign, .token t rest, cache⟩)
    {later : RecordCache → State}
    (others : ∀ cache, Meets (Lands later) (ms cache) (itemsUpTo item n ⟨t, rest, cache⟩)) :
    Meets (Lands later) ((do let a ← m; let as ← ms; return a :: as) cache)
      (itemsUpTo item (n + 1) s) := by
  rw [itemsUpTo_succ]
  refine h.bind fun a cache => ?_
  rw [← bind_pure (following item n a), stops, following_comma comma rfl]
  exact (others cache).bind fun _ _ => .ok rfl

end Lists

/-- Behind the expression of an item a word leads to its name, which otherwise has to be lent. -/
theorem projectionItem_eq (expression : Part) (env : Env) (s : State) :
    ∃ lent : Operand → Reader (String × Expr), projectionItem expression env s =
      (do
        let o ← expression env
        if (← token).isWord "as" then
          next
          let name ← identifier
          next
          return (name, o.expr)
        else lent o) s :=
  ⟨_, rfl⟩

theorem projectionItem_meets {i : NamedText}
    (text : ∃ n, Complete (expressionAt n (env.limited n)) i.text)
    (cuts : Cuts front i.text.toList (.token t r)) (j k l : Nat) (cache : RecordCache) :
    Meets (Lands fun cache => ⟨u, rest, cache⟩) (i.alone env l cache)
      (projectionItem (expressionAt l) env ⟨t, r.followedBy (.token ⟨.identifier, "as", j⟩
        (.token ⟨.identifier, i.name, k⟩ (.token u rest))), cache⟩) := by
  have word : ∀ w, isWord ⟨.identifier, "as", j⟩ w = Text.sameIgnoringCase "as" w := fun _ => rfl
  have stops : (Level.joined .or).StopsAt ⟨.identifier, "as", j⟩ := by
    have other : precedence? ⟨.identifier, "as", j⟩ = none := by
      simp only [precedence?, word]
      decide
    exact ⟨by simp, by simp [other], by simp⟩
  let behind : TokenRun :=
    .token ⟨.identifier, "as", j⟩ (.token ⟨.identifier, i.name, k⟩ (.token u rest))
  let p : Site := ⟨behind, _, _, .token _ _, stops, by simp⟩
  have noChoice : p.NoChoice := show TokenKind.identifier ≠ .question by decide
  obtain ⟨n, complete⟩ := text
  have names : (env.limited n).SameNames env := ⟨rfl, rfl⟩
  have first : Meets (Lands p.after) ((expressionAt l env).alone i.text cache) _ :=
    complete.anyLevel names cuts noChoice l cache
  obtain ⟨lent, whole⟩ := projectionItem_eq (expressionAt l) env ⟨t, r.followedBy behind, cache⟩
  rw [whole]
  refine first.bind fun o cache => .ok ?_
  show (if isWord ⟨.identifier, "as", j⟩ "as" = true then _ else _ : Reader (String × Expr)) _ = _
  rw [word, if_pos (by decide)]
  show (identifier >>= fun name => do next; return (name, o.expr) : Reader (String × Expr))
    ⟨⟨.identifier, i.name, k⟩, .token u rest, cache⟩ = _
  rw [bind_of_ok identifier_reads]
  rfl

/-- An item is read up to what stands behind its name. -/
theorem NamedText.IsItem.reads {i : NamedText} (written : i.IsItem env)
    (apart : ∀ c ∈ tail.head?, Separates c)
    (behind : Cuts (front ++ i.item.toList) tail (.token u rest)) :
    ∃ t run, Cuts front (i.item.toList ++ tail) (.token t run) ∧ rest.length < run.length ∧
      ∀ l cache, Meets (Lands fun cache => ⟨u, rest, cache⟩) (i.alone env l cache)
        (projectionItem (expressionAt l) env ⟨t, run, cache⟩) := by
  obtain ⟨n, complete⟩ := written.text
  obtain ⟨run, cuts⟩ := exists_cuts front i.text.toList
  obtain ⟨t, r, rfl, clean⟩ := complete.branchOpens cuts
  have space : ∀ c ∈ [' '], Text.isWhiteSpace c := List.all_eq_true.mp (by decide)
  have word : IsIdentifier "as" :=
    ⟨'a', ['s'], rfl, by decide, List.forall_mem_singleton.mpr (by decide)⟩
  have spelled : i.item.toList =
      i.text.toList ++ ([' '] ++ ("as".toList ++ ([' '] ++ i.name.toList))) := by
    simp [NamedText.item]
  rw [spelled, ← List.append_assoc, ← List.append_assoc, ← List.append_assoc,
    ← List.append_assoc] at behind
  have named := Cuts.token space (written.name.lexeme (breaks_of_separates apart)) behind
  have worded := Cuts.token space (word.lexeme (breaks_of_separates (separates_space _))) named
  rw [String.ofList_toList, String.ofList_toList] at worded
  have whole := cuts.append clean (separates_space _) worded
  rw [spelled]
  simp only [List.append_assoc] at whole ⊢
  refine ⟨t, _, whole, ?_, fun l cache => projectionItem_meets written.text cuts _ _ l cache⟩
  refine Nat.lt_of_lt_of_le ?_ (TokenRun.length_followedBy_le clean _)
  show rest.length < rest.length + 3
  omega

/-- Items are read up to what stands behind them all. -/
theorem items_read {items : List NamedText} (some : items ≠ [])
    (written : ∀ i ∈ items, i.IsItem env) (other : u.kind ≠ .comma)
    (apart : ∀ c ∈ tail.head?, Separates c)
    (behind : Cuts (front ++ (itemsText items).toList) tail (.token u rest)) :
    ∃ t run, Cuts front ((itemsText items).toList ++ tail) (.token t run) ∧
      items.length ≤ run.length ∧
      ∀ l n cache, items.length ≤ n + 1 → Meets (Lands fun cache => ⟨u, rest, cache⟩)
        (items.mapM (NamedText.alone env l) cache)
        (itemsUpTo (projectionItem (expressionAt l) env) n ⟨t, run, cache⟩) := by
  induction items generalizing front with
  | nil => exact absurd rfl some
  | cons i items ih =>
      obtain ⟨first, later⟩ := List.forall_mem_cons.mp written
      cases items with
      | nil =>
          obtain ⟨t, run, cuts, long, reads⟩ := first.reads apart behind
          refine ⟨t, run, cuts, Nat.zero_lt_of_lt long, fun l n cache _ => ?_⟩
          have single := (reads l cache).lastItem (fun _ => other) n
          simpa using single
      | cons j items =>
          have joined : (itemsText (i :: j :: items)).toList =
              i.item.toList ++ (',' :: ([' '] ++ (itemsText (j :: items)).toList)) := by
            simp [itemsText, Text.joinWith]
          have space : ∀ c ∈ [' '], Text.isWhiteSpace c := List.all_eq_true.mp (by decide)
          have apart' : Separates ',' := .of_closing (by simp)
          have comma : ([','], TokenKind.comma) ∈ signTable := by decide
          rw [joined, List.append_cons, ← List.append_assoc, ← List.append_assoc,
            ← List.append_assoc] at behind
          obtain ⟨t', run', cuts', long', reads'⟩ := ih (by simp) later behind
          have sign := Cuts.sign comma (by decide) (cuts'.after_blanks space)
          obtain ⟨t, run, cuts, long, reads⟩ := first.reads (by simpa using apart') sign
          refine ⟨t, run, by simpa [joined] using cuts, ?_, fun l n cache enough => ?_⟩
          · have passed : run'.length + 1 < run.length := long
            rw [List.length_cons]
            omega
          · obtain ⟨n, rfl⟩ : ∃ m, n = m + 1 := by
              rw [List.length_cons, List.length_cons] at enough
              exact ⟨n - 1, by omega⟩
            have more := (reads l cache).moreItems rfl (fun _ => rfl)
              fun cache => reads' l n cache (Nat.le_of_succ_le_succ enough)
            rwa [List.mapM_cons]

/-! ## Projections -/

/-- The record of the items of a projection. -/
def recorded (pos : Nat) (fields : List (String × Expr)) : Reader Operand := do
  let r ← recordType (fields.map fun (name, e) => ⟨name, e.ty⟩) pos
  return .plain (.newRecord r (fields.map (·.2)))

/-- What is made of the items of a projection. -/
def closingRecord (pos : Nat) (fields : List (String × Expr)) : Reader Operand := do
  skip .closeParen .closeParenOrCommaExpected
  recorded pos fields

theorem projection_items {expression : Part} {word opening : Token}
    (kind : opening.kind = .openParen) :
    projection expression env ⟨word, .token opening (.token t rest), cache⟩ =
      (itemsUpTo (projectionItem expression env) (rest.length + 1) >>= closingRecord word.pos)
        ⟨t, rest, cache⟩ := by
  obtain ⟨_, text, pos⟩ := opening
  cases kind
  rfl

theorem recordType_meets (shape : List Property) (pos : Nat) (cache : RecordCache) :
    Meets (Lands fun cache => ⟨u, rest, cache⟩) (shapeAlone shape cache)
      (recordType shape pos ⟨u, rest, cache⟩) := by
  unfold shapeAlone
  cases made : cache.getOrCreate shape with
  | ok pair => exact .ok (recordType_made made)
  | error e =>
      rw [recordType_refused made]
      exact Meets.error ⟨.invalidProjection e.message, pos⟩ ⟨u, rest, cache⟩

/-- A projection is read up to what stands behind its parenthesis. -/
theorem projection_reads {items : List NamedText} (some : items ≠ [])
    (written : ∀ i ∈ items, i.IsItem env) {later more : TokenRun}
    (behind : Cuts (projectionText items).toList tail later) (opens : later.Opens u more) :
    ∃ rest, Cuts [] ((projectionText items).toList ++ tail)
        (.token ⟨.identifier, "new", 0⟩ rest) ∧
      ∀ l cache, Meets (Lands fun cache => ⟨u, more, cache⟩) (projectionAlone env l items cache)
        (projection (expressionAt l) env ⟨⟨.identifier, "new", 0⟩, rest, cache⟩) := by
  have spelled : (projectionText items).toList =
      "new".toList ++ '(' :: ((itemsText items).toList ++ [')']) := by
    simp [projectionText]
  have opening : (['('], TokenKind.openParen) ∈ signTable := by decide
  have closing : ([')'], TokenKind.closeParen) ∈ signTable := by decide
  have apart : Separates ')' := .of_closing (by simp)
  have closes : Cuts ("new".toList ++ ['('] ++ (itemsText items).toList) (')' :: tail) _ :=
    .sign closing (by decide) (by simpa [spelled] using behind)
  obtain ⟨t, run, cuts, long, reads⟩ := items_read some written (by simp) (by simpa using apart)
    closes
  have word : IsIdentifier "new" :=
    ⟨'n', ['e', 'w'], rfl, by decide, List.all_eq_true.mp (by decide)⟩
  have opened : Cuts ([] ++ [] ++ "new".toList) _ _ := .sign opening (by decide) cuts
  have whole := Cuts.token (by simp) (word.lexeme (breaks_cons.mpr (by decide))) opened
  refine ⟨_, by simpa [spelled] using whole, fun l cache => ?_⟩
  rw [projection_items rfl]
  have closed : ∀ pos fields cache,
      closingRecord 0 fields ⟨⟨.closeParen, ")", pos⟩, later, cache⟩ =
        recorded 0 fields ⟨u, more, cache⟩ := by
    cases opens <;> exact fun _ _ _ => rfl
  refine (reads l _ cache (by omega)).bind fun fields cache => ?_
  refine (closed _ fields cache).symm ▸ ?_
  exact (recordType_meets _ _ cache).bind fun r cache => .ok rfl

theorem named_new {expression : Part} {pos : Nat} :
    named expression env ⟨⟨.identifier, "new", pos⟩, rest, cache⟩ =
      projection expression env ⟨⟨.identifier, "new", pos⟩, rest, cache⟩ := by
  have word : ∀ w, isWord ⟨.identifier, "new", pos⟩ w = Text.sameIgnoringCase "new" w :=
    fun _ => rfl
  rw [named]
  show (if isWord ⟨.identifier, "new", pos⟩ "true" = true then _ else _ : Reader Operand) _ = _
  simp only [word]
  rfl

section Whole

/-- A result that is read is known. -/
theorem Meets.known {α : Type} {place : RecordCache → State} {a : α} {s : State}
    {x : EStateM.Result Problem RecordCache α} {y : EStateM.Result Diagnostic State α}
    (h : Meets (Lands place) x y) (read : y = .ok a s) :
    ∃ cache, x = .ok a cache ∧ s = place cache := by
  cases h with
  | error => cases read
  | ok same =>
      cases Eq.trans (Eq.symm same) read
      exact ⟨_, rfl, rfl⟩

/-- A result that is known is read. -/
theorem Meets.lands {α : Type} {place : RecordCache → State} {a : α}
    {y : EStateM.Result Diagnostic State α} (h : Meets (Lands place) (.ok a cache) y) :
    y = .ok a (place cache) := by
  cases h with
  | ok same => exact same

variable {c : Context} {e : Expr} {after : RecordCache} {items : List NamedText} {o m : Operand}
  {w : String}

/-- A projection that is accepted is what its items are by themselves. -/
theorem exists_projectionAlone (host : Env.ofHost c.params c.values c.maxDepth = .ok env)
    (levels : c.maxDepth = n + 1) (some : items ≠ []) (written : ∀ i ∈ items, i.IsItem env)
    (read : readExpr c none (projectionText items) = (.ok e, after)) :
    ∃ o, projectionAlone env n items c.cache = .ok o after ∧ o.expr = e := by
  obtain ⟨o, s, reads, -, same, rfl⟩ := (readExpr_ok_iff host).mp read
  have finish : Cuts (projectionText items).toList [] _ := .done nofun
  obtain ⟨rest, cuts, meets⟩ := projection_reads some written finish (.done _)
  rw [List.append_nil] at cuts
  rw [Context.start, cuts.scan, Env.ofHost_maxDepth host, levels] at reads
  have first : expressionAt (n + 1) env ⟨⟨.identifier, "new", 0⟩, rest, c.cache⟩ = .ok o s := reads
  rw [expressionAt_named rfl (unaryOp?_identifier (by decide) 0) named_new fun o s read => ?_] at first
  · obtain ⟨cache, known, rfl⟩ := (meets n c.cache).known first
    exact ⟨o, known, same⟩
  · obtain ⟨cache, -, rfl⟩ := (meets n c.cache).known read
    exact Level.stopsAt_of_kind (by simp [Token.atEnd])

/-- At the end of a text a name behind a dot is a property. -/
theorem postfixesUpTo_property {expression : Part} {j k last : Nat}
    (property : Operand.property o.ty (some o) (plainName w) k = .ok m) :
    postfixesUpTo expression env (n + 1) o
        ⟨⟨.dot, ".", j⟩, .token ⟨.identifier, w, k⟩ (.done last), cache⟩ =
      .ok m ⟨Token.atEnd last, .done last, cache⟩ := by
  let start : State := ⟨⟨.identifier, w, k⟩, .done last, cache⟩
  have member : memberAccess expression env o.ty (some o) start =
      .ok m ⟨Token.atEnd last, .done last, cache⟩ := by
    have looked : token start = .ok start.token start := rfl
    rw [memberAccess, bind_of_ok looked, bind_of_ok identifier_reads]
    show check (Operand.property o.ty (some o) (plainName w) k) _ = _
    rw [property]
    rfl
  show (memberAccess expression env o.ty (some o) >>= postfixesUpTo expression env n) start = _
  rw [bind_of_ok member]
  exact postfixesUpTo_ends (by simp [Token.atEnd]) env n m

/-- A property of a projection is read behind it. -/
theorem readExpr_selection (host : Env.ofHost c.params c.values c.maxDepth = .ok env)
    (levels : c.maxDepth = n + 1) (some : items ≠ []) (written : ∀ i ∈ items, i.IsItem env)
    (known : projectionAlone env n items c.cache = .ok o after) (name : IsIdentifier w)
    (property : ∀ pos, Operand.property o.ty (.some o) (plainName w) pos = .ok m) :
    readExpr c none (projectionText items ++ "." ++ w) = (.ok m.expr, after) := by
  obtain ⟨j, k, last, behind⟩ : ∃ j k last, Cuts (projectionText items).toList ('.' :: w.toList)
      (.token ⟨.dot, ".", j⟩ (.token ⟨.identifier, w, k⟩ (.done last))) := by
    have dot : (['.'], TokenKind.dot) ∈ signTable := by decide
    have finish : Cuts ((projectionText items).toList ++ ['.'] ++ [] ++ w.toList) [] _ :=
      .done (by simp)
    have cuts := Cuts.sign dot (by decide) (Cuts.token (by simp) (name.lexeme breaks_nil) finish)
    rw [String.ofList_toList, List.append_nil] at cuts
    exact ⟨_, _, _, cuts⟩
  obtain ⟨rest, cuts, meets⟩ := projection_reads some written behind (.token _ _)
  have spelled : (projectionText items ++ "." ++ w).toList =
      (projectionText items).toList ++ '.' :: w.toList := by simp
  have lands := meets n c.cache
  rw [known] at lands
  have reads : primary (expressionAt n) env ⟨⟨.identifier, "new", 0⟩, rest, c.cache⟩ =
      .ok m ⟨Token.atEnd last, .done last, after⟩ := by
    rw [primary_named rfl named_new, bind_of_ok lands.lands]
    exact postfixesUpTo_property (property k)
  refine (readExpr_ok_iff host).mpr
    ⟨m, ⟨Token.atEnd last, .done last, after⟩, ?_, rfl, rfl, rfl⟩
  rw [← spelled] at cuts
  rw [Context.start, cuts.scan, Env.ofHost_maxDepth host, levels]
  refine (expressionAt_primary (unaryOp?_identifier (by decide) 0) fun o s read => ?_).trans reads
  cases reads.symm.trans read
  exact Level.stopsAt_of_kind (by simp [Token.atEnd])

/-- What an item is by itself is accepted as its text, with a level more. -/
theorem NamedText.IsItem.accepted {i : NamedText} {f : String × Expr}
    (host : Env.ofHost c.params c.values c.maxDepth = .ok env) (levels : c.maxDepth = n + 1)
    (written : i.IsItem env) (known : i.alone env n cache = .ok f after) :
    f.1 = plainName i.name ∧ readExpr { c with cache } none i.text = (.ok f.2, after) ∧
      after.Extends cache := by
  obtain ⟨k, complete⟩ := written.text
  obtain ⟨o, s, made, finish⟩ := exists_of_bind known
  cases finish
  obtain ⟨t, rest, scanned, clean⟩ := complete.branchOpens (cuts_scan i.text)
  obtain ⟨pos, ended⟩ := TokenRun.followedBy_done clean
  have cuts : Cuts [] i.text.toList (.token t rest) := scanned ▸ cuts_scan i.text
  have names : (env.limited k).SameNames env := ⟨rfl, rfl⟩
  have noChoice : (Site.atEnd pos).NoChoice := fun same => nomatch same
  have meets := complete.anyLevel names cuts noChoice n cache
  rw [made] at meets
  have lands : expressionAt n env ⟨t, rest.followedBy (.done pos), cache⟩ = _ := meets.lands
  rw [ended] at lands
  have regular : State.Regular ⟨t, rest, cache⟩ := State.regular_of_words cuts.words
  have moved := (levels_local (.atEnd 0 none) n).1 env _ regular _ _ lands
  refine ⟨rfl, ?_, moved.1.cache⟩
  have depth : env.limited (n + 1) = env := by
    rw [← levels, ← Env.ofHost_maxDepth host]
    rfl
  have deeper := (levels_deepen (n + 1) (Nat.le_succ n)).1 env ⟨t, rest, cache⟩
  rw [depth, lands] at deeper
  rcases deeper with same | ⟨_, _, ⟨⟩, -⟩
  refine (readExpr_ok_iff (c := { c with cache }) host).mpr
    ⟨o, ⟨Token.atEnd pos, .done pos, after⟩, ?_, rfl, rfl, rfl⟩
  rw [Context.start, scanned, Env.ofHost_maxDepth host, levels]
  exact same

/-- What the items are by themselves, one after another, are their texts with all record types that
they have made. -/
theorem items_accepted {fields : List (String × Expr)}
    (host : Env.ofHost c.params c.values c.maxDepth = .ok env) (levels : c.maxDepth = n + 1)
    (written : ∀ i ∈ items, i.IsItem env)
    (known : items.mapM (NamedText.alone env n) cache = .ok fields after) :
    after.Extends cache ∧ ∀ later : RecordCache, later.Extends after →
      List.Forall₂ (fun i f => f.1 = plainName i.name ∧
        readExpr { c with cache := later } none i.text = (.ok f.2, later)) items fields := by
  induction items generalizing cache fields with
  | nil =>
      cases known
      exact ⟨.refl _, fun _ _ => .nil⟩
  | cons i items ih =>
      obtain ⟨first, others⟩ := List.forall_mem_cons.mp written
      rw [List.mapM_cons] at known
      obtain ⟨f, between, made, known⟩ := exists_of_bind known
      obtain ⟨fs, s, made', finish⟩ := exists_of_bind known
      cases finish
      obtain ⟨name, accepted, extended⟩ := first.accepted host levels made
      obtain ⟨extended', rest⟩ := ih others made'
      refine ⟨extended'.trans extended, fun later more => .cons ⟨name, ?_⟩ (rest later more)⟩
      have again := readExpr_again accepted (more.trans extended')
      exact again

/-- A projection by itself is a record of what its items are. -/
theorem projectionAlone_ok (known : projectionAlone env n items cache = .ok o after) :
    ∃ fields between r, items.mapM (NamedText.alone env n) cache = .ok fields between ∧
      between.getOrCreate (fields.map fun (name, e) => ⟨name, e.ty⟩) = .ok (r, after) ∧
      o = .plain (.newRecord r (fields.map (·.2))) := by
  obtain ⟨fields, between, made, known⟩ := exists_of_bind known
  obtain ⟨r, s, shaped, finish⟩ := exists_of_bind known
  cases finish
  refine ⟨fields, between, r, made, ?_, rfl⟩
  unfold shapeAlone at shaped
  split at shaped
  · cases shaped
    assumption
  · cases shaped

end Whole

end Source

end TypedExpr
