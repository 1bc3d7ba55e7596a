import JsonCompanion.Companion.Imports
import JsonCompanion.Compose.Delegation
import JsonCompanion.Proofs.Script.Parenthesized

/-!
# Import statements

* `IsClause` says that a text is what an import statement writes in front of its specifier: a name,
  a namespace, or bindings between braces.
* `reads_import` reads an import statement with such a clause.
* `exists_parse?_lines`: import statements on lines of their own are a module, with these statements, and
  `exists_parse?_importStatement` is the case of a single one.
-/

namespace JsonCompanion.Script

variable {s : Progress} {bound imported specifier t : Text} {next : Token} {part tokens : List Token}
  {specifiers : List ImportSpecifier} {pairs : List (Text × Text)}

/-! ### Names -/

/-- A word that an import of a module may bind. -/
structure IsBindable (name : Text) : Prop where
  isIdentifier : name.isIdentifier
  admitted : Context.module.admitsBinding .lexical (Vocabulary.ofWord name)

instance (name : Text) : Decidable (IsBindable name) :=
  decidable_of_iff
    (name.isIdentifier = true ∧ Context.module.admitsBinding .lexical (Vocabulary.ofWord name) = true)
    ⟨fun h => ⟨h.1, h.2⟩, fun h => ⟨h.isIdentifier, h.admitted⟩⟩

/-- A name that is imported as it is. -/
def ImportSpecifier.plain (name : Text) : ImportSpecifier := .named ⟨name, false⟩ name

private theorem writes_name {name : Text} (hname : name.isIdentifier) : Writes name [.ofName name] := by
  refine ⟨fun hrest hends => hrest.word name hname (Text.endsName_of_endsNumber hends), ?_⟩
  match name with
  | [] => exact absurd hname (by decide)
  | u :: us => exact Nat.succ_pos _

private theorem isWord_ofName (name : Text) : (Token.ofName name).isWord name = true := by
  simp only [Token.ofName, Token.isWord, Bool.not_false, Bool.true_and, beq_self_eq_true]

private theorem isOpen_ofWord (name : Text) : (Vocabulary.ofWord name).isOpen = true := by
  unfold Vocabulary.ofWord
  split_ifs <;> rfl

/-- A word that may be bound may be a name. -/
private theorem isIdentifier_of_admitsBinding (word : Vocabulary)
    (h : Context.module.admitsBinding .lexical word) :
    (Context.module.isIdentifier word && word != .restricted) = true := by
  cases word <;> first | rfl | cases h

/-- The name of a namespace or of a default import. -/
private theorem reads_importName (hbound : IsBindable bound) (hfree : next.IsFree)
    (h : Stands s (.ofName bound :: next :: tokens)) :
    Reads (importName .module) s True fun name s' => name = bound ∧ Stands s' (next :: tokens) := by
  have hword : s.cursor.token = .word ⟨bound, false, Vocabulary.ofWord bound⟩ := h.token_eq
  unfold importName
  simp only [Reads.word?_bind, hword, Token.word?, require?, pure_bind,
    isIdentifier_of_admitsBinding _ hbound.admitted, Reads.require_true]
  exact h.reads_advance (hfree _) fun s' hs' _ _ => ⟨trivial, rfl, hs'⟩

/-- The name behind `as` between braces. -/
private theorem reads_importedAs (hbound : IsBindable bound) (hfree : next.IsFree)
    (h : Stands s (.ofName bound :: next :: tokens)) :
    Reads (importedAs .module) s True fun name s' => name = bound ∧ Stands s' (next :: tokens) := by
  have hword : s.cursor.token = .word ⟨bound, false, Vocabulary.ofWord bound⟩ := h.token_eq
  obtain ⟨previous, hwritten⟩ := h.written
  rw [hword] at hwritten
  unfold importedAs
  simp only [Reads.get_bind, Reads.peek_bind, hword, hbound.admitted, Bool.or_true, Reads.require_true]
  exact h.reads_passName (hfree _) fun s' hs' _ _ => ⟨trivial, hwritten, hs'⟩

/-! ### Bindings between braces -/

/-- The tokens of a binding between braces. -/
def pairTokens (pair : Text × Text) : List Token :=
  if pair.1 = pair.2 then [.ofName pair.2] else [.ofName pair.1, .ofName "as", .ofName pair.2]

/-- What a binding between braces is. -/
def pairSpecifier (pair : Text × Text) : ImportSpecifier := .named ⟨pair.1, false⟩ pair.2

/-- Both names of a binding between braces can stand there. -/
def IsPair (pair : Text × Text) : Prop := pair.1.isIdentifier ∧ IsBindable pair.2

private theorem writes_pair {pair : Text × Text} (hpair : IsPair pair) :
    Writes (ImportStatement.bindingText pair.1 pair.2) (pairTokens pair) := by
  obtain ⟨imported, bound⟩ := pair
  have hbound := writes_name hpair.2.isIdentifier
  have himported := writes_name hpair.1
  unfold ImportStatement.bindingText pairTokens
  by_cases hsame : imported = bound
  · rw [if_pos (beq_iff_eq.2 hsame), if_pos hsame]
    exact hbound
  · rw [if_neg (mt beq_iff_eq.1 hsame), if_neg hsame]
    have has : Text.ofString " as " = 0x20 :: (Text.ofString "as" ++ [0x20]) := rfl
    refine ⟨fun {rest following} hrest hends => ?_, ?_⟩
    · have hword := ((hbound.spells hrest hends).space.word "as" (by decide) rfl).space
      have hwritten := himported.spells hword rfl
      simpa only [has, List.append_assoc, List.cons_append, List.nil_append] using hwritten
    · have hfirst := himported.length_le
      have hlast := hbound.length_le
      simp only [has, List.length_append, List.length_cons, List.length_nil] at hfirst hlast ⊢
      omega

private theorem pairTokens_pos (pair : Text × Text) : 0 < (pairTokens pair).length := by
  unfold pairTokens
  split <;> exact Nat.succ_pos _

private theorem reads_importSpecifier {pair : Text × Text} (hpair : IsPair pair) (hfree : next.IsFree)
    (has : next.isWord "as" = false) (h : Stands s (pairTokens pair ++ next :: tokens)) :
    Reads (importSpecifier .module) s True fun found s' => found = pairSpecifier pair ∧
      Stands s' (next :: tokens) := by
  obtain ⟨imported, bound⟩ := pair
  have hopen : (some (⟨imported, false, Vocabulary.ofWord imported⟩ : Word)).filter
      (fun word => word.vocabulary.isOpen) =
      some ⟨imported, false, Vocabulary.ofWord imported⟩ := by
    rw [Option.filter_some, if_pos (isOpen_ofWord imported)]
  unfold pairTokens at h
  unfold importSpecifier moduleName
  -- a name that is bound as it is, or two names with `as` between them
  by_cases hsame : imported = bound
  · obtain rfl := hsame
    rw [if_pos rfl] at h
    have hword : s.cursor.token = .word ⟨imported, false, Vocabulary.ofWord imported⟩ := h.token_eq
    simp only [Reads.word?_bind, bind_assoc, Reads.peek_bind, hword, Reads.openWord?_bind,
      Token.word?, hopen, require?, pure_bind]
    refine h.reads_passName (hfree _) fun s' hs' _ _ => ?_
    simp only [hs'.not_acceptWord has, Bool.false_eq_true, if_false, hpair.2.admitted,
      Reads.require_true, Reads.pure_iff]
    exact ⟨trivial, rfl, hs'⟩
  · rw [if_neg hsame] at h
    have hword : s.cursor.token = .word ⟨imported, false, Vocabulary.ofWord imported⟩ := h.token_eq
    simp only [Reads.word?_bind, bind_assoc, Reads.peek_bind, hword, Reads.openWord?_bind,
      Token.word?, hopen, require?, pure_bind]
    refine h.reads_passName trivial fun s' hs' _ _ => ?_
    refine hs'.reads_acceptWord (isWord_ofName "as") trivial fun s' hs' _ _ => ?_
    simp only [if_true]
    refine (reads_importedAs hpair.2 hfree hs').bind_first fun name s' hs' => ?_
    exact ⟨trivial, by rw [hs'.1]; rfl, hs'.2⟩

private theorem brace_marks :
    (Token.mark "\x7d").isMark "\x7d" = true ∧ (Token.mark ",").isMark "\x7d" = false ∧
    (Token.mark "\x7d").isWord "as" = false ∧ (Token.mark ",").isWord "as" = false ∧
    (Token.mark "\x7b").isMark "*" = false ∧ (Token.mark "\x7b").isMark "\x7b" = true :=
      ⟨rfl, rfl, rfl, rfl, rfl, rfl⟩

/-- A binding does not begin with a closing brace. -/
private theorem begins_pair (pair : Text × Text) :
    ∃ name more, pairTokens pair = .ofName name :: more := by
  unfold pairTokens
  split <;> exact ⟨_, _, rfl⟩

private theorem name_marks (name : Text) : (Token.ofName name).isMark "\x7d" = false := rfl

/-- Bindings between braces. -/
private theorem reads_namedSpecifiers {self : Rules} (hne : pairs ≠ [])
    (hpairs : ∀ pair ∈ pairs, IsPair pair) (hbudget : pairs.length ≤ self.budget) (hfree : next.IsFree)
    (h : Stands s
      (.mark "\x7b" :: (commaTokens (pairs.map pairTokens) ++ .mark "\x7d" :: next :: tokens))) :
    Reads (namedSpecifiers self .module) s True fun found s' =>
      found = pairs.map pairSpecifier ∧ Stands s' (next :: tokens) := by
  obtain ⟨first, others, rfl⟩ := List.exists_cons_of_ne_nil hne
  obtain ⟨more, hmore⟩ := commaTokens_cons pairTokens first others
  obtain ⟨name, after, hfirst⟩ := begins_pair first
  rw [hmore, hfirst, List.append_assoc, List.cons_append] at h
  unfold namedSpecifiers
  refine h.reads_expect trivial fun s' hs' _ _ => ?_
  rw [← List.cons_append, ← List.append_assoc, ← hfirst, ← hmore] at hs'
  refine Reads.bind_first (R := fun found s' => found = (first :: others).map pairSpecifier ∧
    Stands s' (.mark "\x7d" :: next :: tokens)) ?_ fun found s' hs' => ?_
  · have hstart :
        ([] : List ImportSpecifier) = (([] : List (Text × Text)).map pairSpecifier).reverse := rfl
    unfold commaList
    refine reads_parts (fun done taken => taken = (done.map pairSpecifier).reverse)
      (fun done list => list = done.map pairSpecifier) (first :: others) ?_ ?_
        (fun _ hmem => hmem) hbudget hstart hs'
    · intro done taken s x y more hx hy htaken h
      obtain ⟨name, after, htokens⟩ := begins_pair x
      obtain ⟨name', after', htokens'⟩ := begins_pair y
      simp only [Reads.sees_bind, (h.begins htokens).token_eq, name_marks, Bool.false_eq_true, if_false]
      refine (reads_importSpecifier (hpairs x hx) (Token.isFree_mark _) brace_marks.2.2.2.1
        h).bind_first fun found s' hs' => ?_
      simp only [Reads.sees_bind, hs'.2.token_eq, brace_marks, Bool.false_eq_true, if_false]
      rw [htokens', List.cons_append] at hs' ⊢
      refine hs'.2.reads_expect trivial fun s'' hs'' _ _ => ?_
      exact ⟨trivial, _, rfl, by simp [hs'.1, htaken], hs''⟩
    · intro done taken s x hx htaken h
      obtain ⟨name, after, htokens⟩ := begins_pair x
      simp only [Reads.sees_bind, (h.begins htokens).token_eq, name_marks, Bool.false_eq_true, if_false]
      refine (reads_importSpecifier (hpairs x hx) (Token.isFree_mark _) brace_marks.2.2.1
        h).bind_first fun found s' hs' => ?_
      simp only [Reads.sees_bind, hs'.2.token_eq, brace_marks, if_true, Reads.pure_iff]
      exact ⟨trivial, _, rfl, by simp [hs'.1, htaken], hs'.2⟩
  · refine hs'.2.reads_expect (hfree _) fun s'' hs'' _ _ => ?_
    exact ⟨trivial, hs'.1, hs''⟩

/-! ### Clauses -/

/-- The token begins neither a specifier nor the rest of an expression behind `import`. -/
structure Token.OpensClause (token : Token) : Prop where
  free : token.IsFree
  noString : ∀ value legacy, token ≠ .string value legacy
  noCall : token.isOneOf ["(", "."] = false

/-- A text stands between `import` and `from` and imports what the specifiers say. -/
structure IsClause (t : Text) (part : List Token) (specifiers : List ImportSpecifier) : Prop where
  writes : Writes t part
  begins : ∃ token more, part = token :: more ∧ token.OpensClause
  reads : ∀ {self : Rules} {s : Progress} {tokens : List Token}, part.length ≤ self.budget →
    Stands s (part ++ .ofName "from" :: tokens) →
      Reads (importClause self .module) s True fun found s' =>
      found = specifiers ∧ Stands s' (.ofName "from" :: tokens)

private theorem isFree_ofName (name : Text) : (Token.ofName name).IsFree := fun _ => trivial

private theorem opensClause_ofName (name : Text) : (Token.ofName name).OpensClause :=
  ⟨isFree_ofName name, nofun, rfl⟩

private theorem opensClause_mark {mark : Text} (h : (Token.mark mark).isOneOf ["(", "."] = false) :
    (Token.mark mark).OpensClause := ⟨Token.isFree_mark mark, nofun, h⟩

private theorem word_marks (name : Text) : (Token.ofName name).isMark "*" = false ∧
    (Token.ofName name).isMark "\x7b" = false ∧ (Token.ofName name).isMark "," = false := ⟨rfl, rfl, rfl⟩

/-- A default import. -/
theorem isClause_default (hbound : IsBindable bound) :
    IsClause bound [.ofName bound] [.byDefault bound] := by
  refine ⟨writes_name hbound.isIdentifier, ⟨_, _, rfl, opensClause_ofName bound⟩,
    fun {self s tokens} _ h => ?_⟩
  unfold importClause
  simp only [Reads.sees_bind, h.token_eq, word_marks, Bool.false_eq_true, if_false]
  refine (reads_importName hbound (isFree_ofName _) h).bind_first fun name s' hs' => ?_
  simp only [hs'.2.not_accept (word_marks _).2.2, Bool.false_eq_true, if_false]
  exact ⟨trivial, by rw [hs'.1], hs'.2⟩

private theorem star_mark : (Token.mark "*").isMark "*" = true := rfl

/-- A namespace. -/
theorem isClause_namespace (hbound : IsBindable bound) :
    IsClause ("* as " ++ bound) [.mark "*", .ofName "as", .ofName bound] [.namespace bound] := by
  have hwrites := writes_name hbound.isIdentifier
  have has : Text.ofString "* as " = Text.ofString "*" ++ 0x20 :: (Text.ofString "as" ++ [0x20]) := rfl
  constructor
  case writes =>
    refine ⟨fun {rest following} hrest hends => ?_, ?_⟩
    · have hword := ((hwrites.spells hrest hends).space.word "as" (by decide) rfl).space.star
      simpa only [has, List.append_assoc, List.cons_append, List.nil_append] using hword
    · have hlength := hwrites.length_le
      simp only [has, List.length_append, List.length_cons, List.length_nil] at hlength ⊢
      omega
  case begins => exact ⟨_, _, rfl, opensClause_mark rfl⟩
  case reads =>
    intro self s tokens _ h
    unfold importClause namespaceSpecifier
    simp only [Reads.sees_bind, h.token_eq, star_mark, if_true, bind_assoc]
    refine h.reads_expect trivial fun s' hs' _ _ => ?_
    refine hs'.reads_expectWord (isWord_ofName "as") trivial fun s' hs' _ _ => ?_
    refine (reads_importName hbound (isFree_ofName _) hs').bind_first fun name s' hs' => ?_
    exact ⟨trivial, by rw [hs'.1], hs'.2⟩

/-- Bindings between braces. -/
theorem isClause_named (hne : pairs ≠ []) (hpairs : ∀ pair ∈ pairs, IsPair pair) :
    IsClause ("\x7b " ++
      Text.join ", " (pairs.map fun pair => ImportStatement.bindingText pair.1 pair.2) ++ " \x7d")
      (.mark "\x7b" :: (commaTokens (pairs.map pairTokens) ++ [.mark "\x7d"]))
        (pairs.map pairSpecifier) := by
  have hparts : Writes (Text.join ", " (pairs.map fun pair => ImportStatement.bindingText pair.1 pair.2))
      (commaTokens (pairs.map pairTokens)) := by
    refine Writes.join
      (List.forall₂_map_left_iff.2 (List.forall₂_map_right_iff.2 (List.forall₂_same.2 ?_)))
    exact fun pair hpair => writes_pair (hpairs pair hpair)
  have hopen : Text.ofString "\x7b " = Text.ofString "\x7b" ++ [0x20] := rfl
  have hclose : Text.ofString " \x7d" = 0x20 :: Text.ofString "\x7d" := rfl
  constructor
  case writes =>
    refine ⟨fun {rest following} hrest hends => ?_, ?_⟩
    · have hwritten :=
        (hparts.spells (hrest.mark "\x7d" (by decide)).space rfl).space.mark "\x7b" (by decide)
      simpa only [hopen, hclose, List.append_assoc, List.cons_append, List.nil_append] using hwritten
    · have hlength := hparts.length_le
      simp only [hopen, hclose, List.length_append, List.length_cons, List.length_nil]
      omega
  case begins => exact ⟨_, _, rfl, opensClause_mark rfl⟩
  case reads =>
    intro self s tokens hbudget h
    have hcount := (length_parts pairTokens pairTokens_pos pairs).1
    rw [List.length_cons, List.length_append] at hbudget
    rw [List.cons_append, List.append_assoc, List.cons_append, List.nil_append] at h
    unfold importClause
    simp only [Reads.sees_bind, h.token_eq, brace_marks, Bool.false_eq_true, if_false, if_true]
    exact reads_namedSpecifiers hne hpairs (by omega) (isFree_ofName _) h

/-! ### Declarations -/

/-- The tokens of an import statement. -/
def importTokens (part : List Token) (specifier : Text) : List Token :=
  .ofName "import" :: (part ++ [.ofName "from", .string specifier false, .mark ";"])

/-- The text of an import statement. -/
def importText (t specifier : Text) : Text := "import " ++ t ++ " from " ++ specifier.quote ++ ";"

theorem writes_import (h : Writes t part) (specifier : Text) :
    Writes (importText t specifier) (importTokens part specifier) := by
  have himport : Text.ofString "import " = Text.ofString "import" ++ [0x20] := rfl
  have hfrom : Text.ofString " from " = 0x20 :: (Text.ofString "from" ++ [0x20]) := rfl
  refine ⟨fun {rest following} hrest _ => ?_, ?_⟩
  · have hsource := ((hrest.mark ";" (by decide)).quote specifier).space
    have hclause := h.spells (hsource.word "from" (by decide) rfl).space rfl
    have hwritten := hclause.space.word "import" (by decide) rfl
    unfold importText importTokens
    simpa only [himport, hfrom, List.append_assoc, List.cons_append, List.nil_append] using hwritten
  · have hlength := h.length_le
    have hbegin : (Text.ofString "import ").length = 7 := rfl
    have hmiddle : (Text.ofString " from ").length = 6 := rfl
    simp only [importText, importTokens, hbegin, hmiddle, List.length_append, List.length_cons,
      List.length_nil]
    omega

private theorem semicolon_marks :
    (Token.mark ";").isWord "with" = false ∧ (Token.mark ";").endsStatement = true :=
  ⟨rfl, rfl⟩

/-- The specifier up to the end of the statement. -/
private theorem reads_moduleSource (self : Rules)
    (h : Stands s (.string specifier false :: .mark ";" :: next :: tokens)) :
    Reads (moduleSource self .module) s True fun source s' => source = specifier ∧
      Stands s' (next :: tokens) := by
  unfold moduleSource moduleSpecifier importAttributes endStatement
  simp only [bind_assoc, Reads.peek_bind, h.token_eq]
  refine h.reads_advance trivial fun s' hs' _ _ => ?_
  have htoken : s'.cursor.token = .mark ";" := hs'.token_eq
  have hassigned := hs'.assign false
  simp only [Reads.setAssignable_bind, pure_bind, hassigned.not_acceptWord semicolon_marks.1,
    Bool.false_eq_true, if_false, Reads.onNewLine_bind, Reads.peek_bind, htoken, semicolon_marks.2,
    Bool.or_true, Reads.require_true]
  refine hassigned.reads_accept (Token.fitsIn_operand _ _) fun s'' hs'' _ _ => ?_
  exact ⟨trivial, rfl, hs''⟩

/-- An import statement between other statements. -/
theorem reads_import {self : Rules} (hclause : IsClause t part specifiers)
    (hbudget : part.length ≤ self.budget)
    (h : Stands s (importTokens part specifier ++ next :: tokens)) :
    Reads (moduleItem self .module) s True fun body s' =>
      body = .importNames specifiers specifier ∧ Stands s' (next :: tokens) := by
  obtain ⟨token, more, hpart, hopens⟩ := hclause.begins
  have himport := isWord_ofName "import"
  simp only [importTokens, hpart, List.cons_append, List.append_assoc, List.nil_append] at h
  obtain ⟨cursor, hnext, hcursor⟩ := h.next? .module (hopens.free _)
  unfold moduleItem
  simp only [Reads.seesWord_bind, h.token_eq, himport, if_true, Reads.get_bind, hnext, require?,
    pure_bind, hcursor, hopens.noCall, Bool.false_eq_true, if_false]
  unfold importDeclaration
  refine h.reads_expectWord himport (hopens.free _) fun s' hs' _ _ => ?_
  have hstring : ∀ value legacy, s'.cursor.token ≠ .string value legacy := hs'.token_eq ▸ hopens.noString
  rw [← List.cons_append, ← hpart] at hs'
  simp only [Reads.peek_bind]
  refine (hclause.reads hbudget hs').bind_first fun found s' hs' => ?_
  refine hs'.2.reads_expectWord (isWord_ofName "from") trivial fun s'' hs'' _ _ => ?_
  refine (reads_moduleSource self hs'').bind_first fun source s'' hs'' => ?_
  exact ⟨trivial, by rw [hs'.1, hs''.1], hs''.2⟩

/-! ### Lines -/

/-- The names in the statement can stand there, and there is one between braces. -/
def IsWritable : ImportStatement → Prop
  | .byDefault bound _ => IsBindable bound
  | .namespace bound _ => IsBindable bound
  | .named pairs _ => pairs ≠ [] ∧ ∀ pair ∈ pairs, IsPair pair

/-- What the statement is in a syntax tree. -/
def statementBody : ImportStatement → StatementBody
  | .byDefault bound source => .importNames [.byDefault bound] source
  | .namespace bound source => .importNames [.namespace bound] source
  | .named pairs source => .importNames (pairs.map pairSpecifier) source

/-- The tokens of the statement. -/
def statementTokens : ImportStatement → List Token
  | .byDefault bound source => importTokens [.ofName bound] source
  | .namespace bound source => importTokens [.mark "*", .ofName "as", .ofName bound] source
  | .named pairs source =>
      importTokens (.mark "\x7b" :: (commaTokens (pairs.map pairTokens) ++ [.mark "\x7d"])) source

/-- The statement has a clause. -/
private theorem exists_clause {statement : ImportStatement} (h : IsWritable statement) :
    ∃ t part specifiers source, IsClause t part specifiers ∧ statement.text = importText t source ∧
      statementTokens statement = importTokens part source ∧
        statementBody statement = .importNames specifiers source := by
  cases statement with
  | byDefault bound source => exact ⟨_, _, _, source, isClause_default h, rfl, rfl, rfl⟩
  | «namespace» bound source =>
    have hbegin : Text.ofString "import * as " = Text.ofString "import " ++ Text.ofString "* as " := rfl
    refine ⟨_, _, _, source, isClause_namespace h, ?_, rfl, rfl⟩
    simp only [ImportStatement.text, importText, hbegin, List.append_assoc]
  | named pairs source =>
    have hbegin : Text.ofString "import \x7b " = Text.ofString "import " ++ Text.ofString "\x7b " := rfl
    have hend : Text.ofString " \x7d from " = Text.ofString " \x7d" ++ Text.ofString " from " := rfl
    refine ⟨_, _, _, source, isClause_named h.1 h.2, ?_, rfl, rfl⟩
    simp only [ImportStatement.text, importText, hbegin, hend, List.append_assoc]

variable {statement : ImportStatement} {statements : List ImportStatement}

private theorem writes_statement (h : IsWritable statement) :
    Writes statement.text (statementTokens statement) := by
  obtain ⟨t, part, specifiers, source, hclause, htext, htokens, -⟩ := exists_clause h
  rw [htext, htokens]
  exact writes_import hclause.writes source

private theorem reads_statement_of (h : IsWritable statement) {self : Rules}
    (hbudget : (statementTokens statement).length ≤ self.budget)
    (hs : Stands s (statementTokens statement ++ next :: tokens)) :
    Reads (moduleItem self .module) s True fun body s' => body = statementBody statement ∧
      Stands s' (next :: tokens) := by
  obtain ⟨t, part, specifiers, source, hclause, -, htokens, hbody⟩ := exists_clause h
  rw [htokens] at hbudget hs
  rw [hbody]
  refine reads_import hclause (Nat.le_trans ?_ hbudget) hs
  simp only [importTokens, List.length_cons, List.length_append]
  omega

private theorem text_begins (statement : ImportStatement) : ∃ t, statement.text = "import" ++ t := by
  cases statement <;> exact ⟨_, by simp only [ImportStatement.text, List.append_assoc]; rfl⟩

private theorem tokens_begin (statement : ImportStatement) :
    ∃ more, statementTokens statement = .ofName "import" :: more := by
  cases statement <;> exact ⟨_, rfl⟩

private theorem lines_begin (first : ImportStatement) (others : List ImportStatement) :
    ∃ t, Text.join "\n" ((first :: others).map ImportStatement.text) = "import" ++ t := by
  obtain ⟨t, htext⟩ := text_begins first
  cases others with
  | nil => exact ⟨t, htext⟩
  | cons second others =>
      exact ⟨_, by simp only [List.map_cons, Text.join, htext, List.append_assoc]; rfl⟩

/-- Statements on lines of their own. -/
private theorem spells_lines (h : ∀ statement ∈ statements, IsWritable statement) :
    Spells (Text.join "\n" (statements.map ImportStatement.text))
      (statements.flatMap statementTokens ++ [.finish]) ∧
      (statements.flatMap statementTokens).length ≤
        (Text.join "\n" (statements.map ImportStatement.text)).length := by
  induction statements with
  | nil => exact ⟨Spells.finish, Nat.le_refl _⟩
  | cons first others ih =>
    obtain ⟨hfirst, hothers⟩ := List.forall_mem_cons.1 h
    have hwrites := writes_statement hfirst
    obtain ⟨hspells, hlength⟩ := ih hothers
    cases others with
    | nil =>
      have hspelled := hwrites.spells Spells.finish rfl
      rw [List.append_nil] at hspelled
      exact ⟨by simpa [Text.join] using hspelled, by simpa [Text.join] using hwrites.length_le⟩
    | cons second others =>
      obtain ⟨t, htext⟩ := lines_begin second others
      obtain ⟨more, hmore⟩ := tokens_begin second
      have hjoin : Text.join "\n" ((first :: second :: others).map ImportStatement.text) =
          first.text ++ 0x0A :: (Text.ofString "import" ++ t) := by
        rw [← htext, List.map_cons, List.map_cons, Text.join, List.append_assoc]
        rfl
      rw [htext] at hspells hlength
      -- the end of a line in front of a token leaves the token as it is
      have hline : Spells (0x0A :: (Text.ofString "import" ++ t))
          ((second :: others).flatMap statementTokens ++ [.finish]) := by
        rw [List.flatMap_cons, hmore, List.cons_append, List.cons_append] at hspells ⊢
        exact hspells.line rfl
      rw [hjoin, List.flatMap_cons, List.append_assoc, List.length_append, List.length_append,
        List.length_cons]
      exact ⟨hwrites.spells hline rfl, Nat.add_le_add hwrites.length_le (Nat.le_succ_of_le hlength)⟩

private theorem budget_rules : ∀ depth, (rules depth).budget = depth
  | 0 | _ + 1 => rfl

private theorem length_lines (statements : List ImportStatement) :
    statements.length ≤ (statements.flatMap statementTokens).length ∧
      ∀ statement ∈ statements,
        (statementTokens statement).length ≤ (statements.flatMap statementTokens).length := by
  induction statements with
  | nil => exact ⟨Nat.le_refl _, fun _ hmem => absurd hmem List.not_mem_nil⟩
  | cons first others ih =>
    obtain ⟨more, hmore⟩ := tokens_begin first
    rw [List.flatMap_cons, List.length_append, List.length_cons, hmore, List.length_cons]
    refine ⟨by omega, fun statement hmem => ?_⟩
    rcases List.mem_cons.1 hmem with rfl | hmem
    · rw [hmore, List.length_cons]
      omega
    · exact Nat.le_trans (ih.2 statement hmem) (Nat.le_add_left _ _)

/-- Import statements on lines of their own are a module, with these statements. -/
theorem exists_parse?_lines (h : ∀ statement ∈ statements, IsWritable statement) :
    ∃ module, Module.parse? (Text.join "\n" (statements.map ImportStatement.text)) = some module ∧
      module.statements.map Statement.body = statements.map statementBody := by
  obtain ⟨hspells, hlength⟩ := spells_lines h
  obtain ⟨hcount, hpart⟩ := length_lines statements
  generalize htext : Text.join "\n" (statements.map ImportStatement.text) = text at hspells hlength ⊢
  have hhash : Text.dropBeginning? "#!" text = none := by
    cases statements with
    | nil => exact htext ▸ rfl
    | cons first others =>
      obtain ⟨t, hbegin⟩ := lines_begin first others
      rw [← htext, hbegin]
      rfl
  obtain ⟨token, tokens, htokens⟩ : ∃ token tokens,
    statements.flatMap statementTokens ++ [.finish] = token :: tokens :=
    List.exists_cons_of_ne_nil (by simp)
  rw [htokens] at hspells
  obtain ⟨cursor, hbegin, hstands⟩ := hspells.begin? hhash .module
  rw [← htokens] at hstands
  have hbudget : text.length < (rules (depthFor text)).budget := by
    rw [budget_rules]
    unfold depthFor
    omega
  have hread : Reads
      (Script.statements (rules (depthFor text)) (moduleItem (rules (depthFor text)) .module))
      { cursor } True
      fun list _ => list.map Statement.body = statements.map statementBody := by
    -- in each turn of the loop some statements of the list are ahead
    let Ahead (ahead : List ImportStatement) (s : Progress) : Prop :=
      (∀ statement ∈ ahead, statement ∈ statements) ∧
        Stands s (ahead.flatMap statementTokens ++ [.finish])
    have hstart : Ahead statements { cursor } := ⟨fun _ hmem => hmem, hstands⟩
    refine reads_statements ?_ ?_ (by omega) hstart
    · exact fun hs => hs.2.token_eq
    · rintro statement others s ⟨hmem, hs⟩
      obtain ⟨hfirst, hothers⟩ := List.forall_mem_cons.1 hmem
      obtain ⟨more, hmore⟩ := tokens_begin statement
      obtain ⟨next, rest, hrest⟩ : ∃ next rest,
        others.flatMap statementTokens ++ [.finish] = next :: rest :=
        List.exists_cons_of_ne_nil (by simp)
      rw [List.flatMap_cons, List.append_assoc, hrest] at hs
      constructor
      · rw [(hs.begins hmore).token_eq]
        exact Token.noConfusion
      · have hbound : (statementTokens statement).length ≤ (rules (depthFor text)).budget := by
          have := hpart statement hfirst
          omega
        refine (reads_statement_of (h statement hfirst) hbound hs).imp fun body s' hs' =>
          ⟨hs'.1, hothers, ?_⟩
        rw [hrest]
        exact hs'.2
  obtain ⟨list, progress, hlist, hbodies⟩ :=
    exists_statementsOf? (fun self => moduleItem self .module) hbegin hread
  refine ⟨⟨list, progress.cursor.comments.reverse⟩, ?_, hbodies⟩
  unfold Module.parse?
  simp only [hlist, Option.bind_eq_bind, Option.bind_some]

/-- The declaration of names as they are is a statement of such bindings. -/
private theorem text_plain (names : List Text) (specifier : Text) :
    (ImportStatement.named (names.map fun name => (name, name)) specifier).text =
      JsonCompanion.importStatement names specifier := by
  simp [ImportStatement.text, JsonCompanion.importStatement, ImportStatement.bindingText,
    Function.comp_def]

/-- An import statement is a module of its own, with that import. -/
theorem exists_parse?_importStatement {names : List Text} (hne : names ≠ [])
    (hnames : ∀ name ∈ names, IsBindable name) (specifier : Text) :
    ∃ module span, Module.parse? (JsonCompanion.importStatement names specifier) = some module ∧
      module.imports = [⟨names.map ImportSpecifier.plain, specifier, span⟩] := by
  have hwritable : ∀ statement ∈ [ImportStatement.named (names.map fun name => (name, name)) specifier],
      IsWritable statement := by
    refine List.forall_mem_singleton.2 ⟨by simpa using hne, List.forall_mem_map.2 fun name hname => ?_⟩
    exact ⟨(hnames name hname).isIdentifier, hnames name hname⟩
  obtain ⟨module, hmodule, hbodies⟩ := exists_parse?_lines hwritable
  obtain ⟨statement, hstatement, hbody⟩ := List.map_eq_singleton_iff.1 hbodies
  rw [List.map_singleton, text_plain] at hmodule
  refine ⟨module, statement.span, hmodule, ?_⟩
  unfold Module.imports
  rw [hstatement, List.filterMap_cons, List.filterMap_nil, Statement.import?, hbody]
  simp [statementBody, pairSpecifier, ImportSpecifier.plain, Function.comp_def]

end JsonCompanion.Script
